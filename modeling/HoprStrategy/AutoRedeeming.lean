import HoprStrategy.HoprBalance
import HoprStrategy.Library.TransitionSystem

/-!
# Automatic redemption

The strategy starts a task for each channel whose tickets it redeems, and keeps
the handle of the task in a cache with a time to live and a capacity.  An entry
which leaves the cache is passed to a listener, which aborts the task unless the
cache was full.  The strategy, the tasks and the cache take their steps in any
order.
-/

namespace HoprStrategy.AutoRedeeming

open Library

structure AutoRedeemingStrategyConfig where
  redeemAllOnClose : Bool
  minimumRedeemTicketValue : HoprBalance
  redeemOnWinning : Bool

/-- In milliseconds. -/
def redemptionTimeout : ℕ := 300000

def redemptionCacheCapacity : ℕ := 1024

inductive RemovalCause where
  | expired
  | explicit
  | replaced
  | size

section

variable (Id : Type)

structure CacheEntry where
  channel : Id
  task : ℕ
  expiresAt : ℕ

/-- A task which has not ended.  In its last poll it can no longer be aborted.
It is listed until its entry is taken away while it goes on. -/
structure Redemption where
  handle : ℕ
  channel : Id
  finishing : Bool
  listed : Bool

/-- Where the strategy's task stands. -/
inductive RunnerPhase where
  | working (pending : List Id)
  /-- A task was spawned, and its entry is about to be inserted. -/
  | inserting (pending : List Id) (channel : Id) (task : ℕ)
  | dropped

/-- `aborts` lists the running tasks which were aborted, and whether their
timeout had elapsed or the strategy was dropped; `removals` the finishing tasks
and the tasks whose entries they removed. -/
structure RedeemState where
  now : ℕ
  runningRedemptions : List (CacheEntry Id)
  tasks : List (Redemption Id)
  nextHandle : ℕ
  phase : RunnerPhase Id
  aborts : List (ℕ × Bool)
  removals : List (ℕ × ℕ)

inductive RedeemAction where
  | pass (now : ℕ)
  /-- A tick, with the redeemable channels. -/
  | tick (channels : List Id)
  /-- The channel of the ticket, and its ticket index. -/
  | winningTicket (amount : HoprBalance) (index : ℕ)
      (channel : Option (Id × ℕ))
  | closureInitiated (channel : Id) (incoming pendingToClose : Bool)
  | enqueue
  | insert
  | complete (handle : ℕ)
  | invalidate (handle : ℕ)
  | expire (channel : Id)
  | evict (channel : Id)
  | drop

end

variable {Id : Type} [DecidableEq Id]

/-! ## What is redeemed -/

def onTick (cfg : AutoRedeemingStrategyConfig) (channels : List Id) :
    List Id :=
  if cfg.redeemOnWinning then [] else channels

def onAcknowledgedWinningTicket (cfg : AutoRedeemingStrategyConfig)
    (amount : HoprBalance) (index : ℕ) (channel : Option (Id × ℕ)) : List Id :=
  if cfg.redeemOnWinning && cfg.minimumRedeemTicketValue ≤ amount then
    match channel with
    | some (id, ticketIndex) => if index < ticketIndex then [] else [id]
    | none => []
  else []

def onOwnChannelChanged (cfg : AutoRedeemingStrategyConfig) (channel : Id)
    (incoming pendingToClose : Bool) : List Id :=
  if incoming && cfg.redeemAllOnClose && pendingToClose then [channel] else []

namespace RedeemState

/-! ## The cache -/

/-- An expired entry is not seen any more. -/
def containsKey (state : RedeemState Id) (channel : Id) : Bool :=
  state.runningRedemptions.any fun entry =>
    entry.channel = channel && state.now < entry.expiresAt

/-- A running task ends; one in its last poll goes on. -/
def abort (state : RedeemState Id) (handle : ℕ) (excused : Bool) :
    RedeemState Id :=
  { state with
    tasks := (state.tasks.filter fun task =>
        task.handle ≠ handle || task.finishing).map fun task =>
      if task.handle = handle then { task with listed := false } else task
    aborts := state.aborts ++
      (if state.tasks.any fun task => task.handle = handle && ! task.finishing
        then [(handle, excused)] else []) }

def delist (state : RedeemState Id) (handle : ℕ) : RedeemState Id :=
  { state with
    tasks := state.tasks.map fun task =>
      if task.handle = handle then { task with listed := false } else task }

def evictionListener (state : RedeemState Id) (entry : CacheEntry Id) :
    RemovalCause → RedeemState Id
  | .expired => state.abort entry.task (entry.expiresAt ≤ state.now)
  | .size => state.delist entry.task
  | .explicit | .replaced =>
      state.abort entry.task (entry.expiresAt ≤ state.now)

def without (state : RedeemState Id) (channel : Id) : List (CacheEntry Id) :=
  state.runningRedemptions.filter fun entry => entry.channel ≠ channel

def entryOf (state : RedeemState Id) (channel : Id) :
    Option (CacheEntry Id) :=
  state.runningRedemptions.find? fun entry => entry.channel = channel

/-- Takes the entry of the channel out; an expired one counts as expired
whatever it is removed for. -/
def remove (state : RedeemState Id) (channel : Id) (cause : RemovalCause) :
    RedeemState Id :=
  match state.entryOf channel with
  | none => state
  | some entry =>
      evictionListener
        { state with runningRedemptions := state.without channel } entry
        (if entry.expiresAt ≤ state.now then .expired else cause)

/-! ## The strategy and its tasks -/

def next (cfg : AutoRedeemingStrategyConfig) (state : RedeemState Id) :
    RedeemAction Id → Option (RedeemState Id)
  | .pass now =>
      if state.now ≤ now then some { state with now := now } else none
  | .tick channels =>
      match state.phase with
      | .working [] =>
          some { state with phase := .working (onTick cfg channels) }
      | _ => none
  | .winningTicket amount index channel =>
      match state.phase with
      | .working [] =>
          some { state with
            phase := .working
              (onAcknowledgedWinningTicket cfg amount index channel) }
      | _ => none
  | .closureInitiated channel incoming pendingToClose =>
      match state.phase with
      | .working [] =>
          some { state with
            phase := .working
              (onOwnChannelChanged cfg channel incoming pendingToClose) }
      | _ => none
  | .enqueue =>
      match state.phase with
      | .working (channel :: rest) =>
          if state.containsKey channel then
            some { state with phase := .working rest }
          else
            some { state with
              tasks :=
                state.tasks ++ [⟨state.nextHandle, channel, false, true⟩]
              nextHandle := state.nextHandle + 1
              phase := .inserting rest channel state.nextHandle }
      | _ => none
  | .insert =>
      match state.phase with
      | .inserting rest channel task =>
          let removed := state.remove channel .replaced
          some { removed with
            runningRedemptions :=
              ⟨channel, task, state.now + redemptionTimeout⟩ ::
                removed.runningRedemptions
            phase := .working rest }
      | _ => none
  | .complete handle =>
      some { state with
        tasks := state.tasks.map fun task =>
          if task.handle = handle then { task with finishing := true }
          else task }
  | .invalidate handle =>
      match state.tasks.find? (fun task =>
          task.handle = handle && task.finishing) with
      | none => none
      | some task =>
          let removed := state.remove task.channel .explicit
          some { removed with
            tasks := removed.tasks.filter fun other => other.handle ≠ handle
            removals := state.removals ++
              ((state.entryOf task.channel).map fun entry =>
                (handle, entry.task)).toList }
  | .expire channel =>
      match state.entryOf channel with
      | some entry =>
          if entry.expiresAt ≤ state.now then
            some (state.remove channel .expired)
          else none
      | none => none
  | .evict channel =>
      if redemptionCacheCapacity < state.runningRedemptions.length then
        match state.entryOf channel with
        | some entry =>
            some (evictionListener
              { state with runningRedemptions := state.without channel } entry
              .size)
        | none => none
      else none
  | .drop =>
      match state.phase with
      | .working _ =>
          some { state.runningRedemptions.foldl
              (fun state entry => state.abort entry.task true) state with
            phase := .dropped }
      | _ => none

def initial : RedeemState Id where
  now := 0
  runningRedemptions := []
  tasks := []
  nextHandle := 0
  phase := .working []
  aborts := []
  removals := []

end RedeemState

def autoRedeeming (cfg : AutoRedeemingStrategyConfig) :
    TransitionSystem (RedeemState Id) (RedeemAction Id) where
  init state := state = RedeemState.initial
  next := RedeemState.next cfg

namespace RedeemState

variable {cfg : AutoRedeemingStrategyConfig}
  {state before after : RedeemState Id}

def entriesOf (state : RedeemState Id) (channel : Id) : List ℕ :=
  (state.runningRedemptions.filter fun entry =>
    entry.channel = channel).map CacheEntry.task

def tasksOf (state : RedeemState Id) (channel : Id) : List ℕ :=
  (state.tasks.filter fun task => task.channel = channel).map
    Redemption.handle

def listedTasksOf (state : RedeemState Id) (channel : Id) : List ℕ :=
  (state.tasks.filter fun task =>
    task.channel = channel && task.listed).map Redemption.handle

/-- The task completes after its entry was inserted.  If its entry was taken
away from it, no later task of the channel has one. -/
def InTurn (state : RedeemState Id) : RedeemAction Id → Prop
  | .invalidate handle =>
      ∀ task ∈ state.tasks, task.handle = handle →
        (∀ pending channel, state.phase ≠ .inserting pending channel handle) ∧
          (task.listed = false →
            ∀ entry ∈ state.runningRedemptions, entry.channel ≠ task.channel)
  | _ => True

/-- The task whose entry is about to be inserted. -/
def Inserting (state : RedeemState Id) (channel : Id) (handle : ℕ) : Prop :=
  ∃ pending, state.phase = .inserting pending channel handle

structure Guarded (state : RedeemState Id) : Prop where
  handles : (state.tasks.map Redemption.handle).Nodup
  fresh : ∀ task ∈ state.tasks, task.handle < state.nextHandle
  keys : (state.runningRedemptions.map CacheEntry.channel).Nodup
  entries : ∀ entry ∈ state.runningRedemptions, ∃ task ∈ state.tasks,
    task.handle = entry.task ∧ task.channel = entry.channel ∧
      task.listed = true
  listed : ∀ task ∈ state.tasks, task.listed = true →
    state.Inserting task.channel task.handle ∨
      ∃ entry ∈ state.runningRedemptions, entry.task = task.handle ∧
        entry.channel = task.channel
  inserting : ∀ channel handle, state.Inserting channel handle →
    (∃ task ∈ state.tasks, task.handle = handle ∧ task.channel = channel ∧
      task.listed = true) ∧
    ∀ entry ∈ state.runningRedemptions, entry.task ≠ handle ∧
      (entry.channel = channel → entry.expiresAt ≤ state.now)
  aborts : ∀ aborted ∈ state.aborts, aborted.2 = true
  removals : ∀ removal ∈ state.removals, removal.1 = removal.2

/-! ## The removal of an entry -/

/-- The task of a removed entry is stopped or no longer listed; the others are
the same. -/
structure Silences (handle : ℕ) (before after : RedeemState Id) : Prop where
  now : after.now = before.now
  phase : after.phase = before.phase
  nextHandle : after.nextHandle = before.nextHandle
  removals : after.removals = before.removals
  handles : (after.tasks.map Redemption.handle).Sublist
    (before.tasks.map Redemption.handle)
  others : ∀ task, task.handle ≠ handle →
    (task ∈ after.tasks ↔ task ∈ before.tasks)
  silent : ∀ task ∈ after.tasks, task.handle = handle → task.listed = false

omit [DecidableEq Id] in
theorem mem_delisted {tasks : List (Redemption Id)} {handle : ℕ}
    {task : Redemption Id} (hne : task.handle ≠ handle) :
    task ∈ tasks.map (fun other =>
      if other.handle = handle then { other with listed := false } else other) ↔
      task ∈ tasks := by
  rw [List.mem_map]
  constructor
  · intro hmem
    obtain ⟨other, hother, heq⟩ := hmem
    split at heq
    · rename_i hhandle
      rw [← heq] at hne
      exact absurd hhandle hne
    · exact heq ▸ hother
  · exact fun hmem => ⟨task, hmem, if_neg hne⟩

omit [DecidableEq Id] in
theorem delisted_silent {tasks : List (Redemption Id)} {handle : ℕ} :
    ∀ task ∈ tasks.map (fun other =>
      if other.handle = handle then { other with listed := false } else other),
      task.handle = handle → task.listed = false := by
  intro task hmem hhandle
  obtain ⟨other, _, heq⟩ := List.mem_map.mp hmem
  split at heq
  · rw [← heq]
  · rename_i hne
    rw [heq] at hne
    exact absurd hhandle hne

omit [DecidableEq Id] in
theorem delisted_handles (tasks : List (Redemption Id)) (handle : ℕ) :
    (tasks.map (fun other => if other.handle = handle
      then { other with listed := false } else other)).map Redemption.handle =
      tasks.map Redemption.handle := by
  rw [List.map_map]
  apply List.map_congr_left
  intro task _
  dsimp only [Function.comp]
  split
  · rfl
  · rfl

omit [DecidableEq Id] in
theorem abort_silences (handle : ℕ) (excused : Bool) :
    Silences handle state (state.abort handle excused) := by
  refine ⟨rfl, rfl, rfl, rfl, ?_, ?_, delisted_silent⟩
  · unfold abort
    dsimp only
    rw [delisted_handles]
    exact (List.filter_sublist).map _
  · intro task hne
    unfold abort
    dsimp only
    rw [mem_delisted hne, List.mem_filter]
    exact ⟨And.left, fun hmem => ⟨hmem, by simp [hne]⟩⟩

omit [DecidableEq Id] in
theorem delist_silences (handle : ℕ) :
    Silences handle state (state.delist handle) := by
  refine ⟨rfl, rfl, rfl, rfl, ?_, fun task hne => mem_delisted hne,
    delisted_silent⟩
  unfold delist
  dsimp only
  rw [delisted_handles]

omit [DecidableEq Id] in
theorem Guarded.task_unique (hguarded : state.Guarded)
    {first second : Redemption Id} (hfirst : first ∈ state.tasks)
    (hsecond : second ∈ state.tasks) (hhandle : first.handle = second.handle) :
    first = second :=
  List.inj_on_of_nodup_map hguarded.handles hfirst hsecond hhandle

omit [DecidableEq Id] in
theorem Guarded.entry_unique (hguarded : state.Guarded)
    {first second : CacheEntry Id} (hfirst : first ∈ state.runningRedemptions)
    (hsecond : second ∈ state.runningRedemptions)
    (hchannel : first.channel = second.channel) : first = second :=
  List.inj_on_of_nodup_map hguarded.keys hfirst hsecond hchannel

theorem mem_without {channel : Id} {entry : CacheEntry Id} :
    entry ∈ state.without channel ↔
      entry ∈ state.runningRedemptions ∧ entry.channel ≠ channel := by
  simp [without]

/-- An entry is taken out of the cache, and its task is silenced. -/
theorem Guarded.takeOut (hguarded : before.Guarded) {entry : CacheEntry Id}
    (hentry : entry ∈ before.runningRedemptions)
    (hsilences : Silences entry.task
      { before with runningRedemptions := before.without entry.channel } after)
    (hcache : after.runningRedemptions = before.without entry.channel)
    (haborts : ∀ aborted ∈ after.aborts, aborted.2 = true) :
    after.Guarded := by
  obtain ⟨owner, howner, hhandle, hchannel, _⟩ := hguarded.entries entry hentry
  have hinserting : ∀ channel handle, after.Inserting channel handle →
      before.Inserting channel handle := by
    intro channel handle hins
    obtain ⟨pending, hphase⟩ := hins
    rw [hsilences.phase] at hphase
    exact ⟨pending, hphase⟩
  constructor
  · exact hguarded.handles.sublist hsilences.handles
  · intro task hmem
    rw [hsilences.nextHandle]
    have hmem' := hsilences.handles.subset (List.mem_map_of_mem hmem)
    obtain ⟨other, hother, heq⟩ := List.mem_map.mp hmem'
    rw [← heq]
    exact hguarded.fresh other hother
  · rw [hcache]
    exact hguarded.keys.sublist ((List.filter_sublist).map _)
  · intro other hother
    rw [hcache, mem_without] at hother
    obtain ⟨task, htask, hsame, hsame', hlisted⟩ :=
      hguarded.entries other hother.1
    have hne : task.handle ≠ entry.task := by
      intro heq
      have hboth := hguarded.task_unique htask howner (heq.trans hhandle.symm)
      rw [hboth, hchannel] at hsame'
      exact hother.2 hsame'.symm
    exact ⟨task, (hsilences.others task hne).mpr htask, hsame, hsame', hlisted⟩
  · intro task hmem hlisted
    have hne : task.handle ≠ entry.task := by
      intro heq
      have hsilent := hsilences.silent task hmem heq
      rw [hlisted] at hsilent
      cases hsilent
    rcases hguarded.listed task ((hsilences.others task hne).mp hmem) hlisted
      with hins | ⟨other, hother, hsame, hsame'⟩
    · obtain ⟨pending, hphase⟩ := hins
      exact Or.inl ⟨pending, hsilences.phase.trans hphase⟩
    · refine Or.inr ⟨other, ?_, hsame, hsame'⟩
      rw [hcache, mem_without]
      refine ⟨hother, fun heq => hne ?_⟩
      rw [← hguarded.entry_unique hother hentry heq]
      exact hsame.symm
  · intro channel handle hins
    obtain ⟨⟨task, htask, hsame, hsame', hlisted⟩, hothers⟩ :=
      hguarded.inserting channel handle (hinserting channel handle hins)
    refine ⟨⟨task, ?_, hsame, hsame', hlisted⟩, ?_⟩
    · refine (hsilences.others task ?_).mpr htask
      rw [hsame]
      exact ((hothers entry hentry).1).symm
    · intro other hother
      rw [hcache, mem_without] at hother
      rw [hsilences.now]
      exact hothers other hother.1
  · exact haborts
  · rw [hsilences.removals]
    exact hguarded.removals

theorem mem_of_entryOf {channel : Id} {entry : CacheEntry Id}
    (hentry : state.entryOf channel = some entry) :
    entry ∈ state.runningRedemptions ∧ entry.channel = channel := by
  have hfound := List.find?_some hentry
  rw [decide_eq_true_eq] at hfound
  exact ⟨List.mem_of_find?_eq_some hentry, hfound⟩

theorem entryOf_eq_none {channel : Id} : state.entryOf channel = none ↔
    ∀ entry ∈ state.runningRedemptions, entry.channel ≠ channel := by
  simp [entryOf, List.find?_eq_none]

/-- The listener stops the task of an entry whose timeout has elapsed. -/
theorem Guarded.abortDue (hguarded : before.Guarded) {entry : CacheEntry Id}
    (hentry : entry ∈ before.runningRedemptions)
    (hdue : entry.expiresAt ≤ before.now ∨
      ∀ task ∈ before.tasks, task.handle = entry.task →
        task.finishing = true) :
    (abort { before with
      runningRedemptions := before.without entry.channel } entry.task
      (entry.expiresAt ≤ before.now)).Guarded := by
  refine hguarded.takeOut hentry (abort_silences _ _) rfl ?_
  intro aborted hmem
  rcases List.mem_append.mp hmem with hold | hnew
  · exact hguarded.aborts aborted hold
  · split at hnew
    · rename_i hany
      rw [List.mem_singleton.mp hnew]
      rcases hdue with hexpired | hfinishing
      · simpa using hexpired
      · rw [List.any_eq_true] at hany
        obtain ⟨task, htask, hrunning⟩ := hany
        rw [Bool.and_eq_true, decide_eq_true_eq] at hrunning
        have hlast := hfinishing task htask hrunning.1
        rw [hlast] at hrunning
        cases hrunning.2
    · cases hnew

theorem remove_of_entry {channel : Id} {entry : CacheEntry Id}
    {cause : RemovalCause} (hcause : cause ≠ .size)
    (hentry : state.entryOf channel = some entry) :
    state.remove channel cause = abort { state with
      runningRedemptions := state.without entry.channel } entry.task
      (entry.expiresAt ≤ state.now) := by
  have hchannel := (mem_of_entryOf hentry).2
  unfold remove
  rw [hentry, hchannel]
  dsimp only
  split
  · rfl
  · cases cause with
    | size => exact absurd rfl hcause
    | expired => rfl
    | explicit => rfl
    | replaced => rfl

/-! ## The steps -/

omit [DecidableEq Id] in
theorem Guarded.insert (hguarded : before.Guarded) {rest : List Id}
    {channel : Id} {handle expiresAt : ℕ}
    (hphase : before.phase = .inserting rest channel handle)
    (hnone : ∀ entry ∈ before.runningRedemptions, entry.channel ≠ channel) :
    Guarded { before with
      runningRedemptions :=
        ⟨channel, handle, expiresAt⟩ :: before.runningRedemptions
      phase := .working rest } := by
  obtain ⟨⟨owner, howner, hhandle, hchannel, hlisted⟩, _⟩ :=
    hguarded.inserting channel handle ⟨rest, hphase⟩
  constructor
  · exact hguarded.handles
  · exact hguarded.fresh
  · rw [List.map_cons, List.nodup_cons]
    refine ⟨?_, hguarded.keys⟩
    intro hmem
    obtain ⟨entry, hentry, heq⟩ := List.mem_map.mp hmem
    exact hnone entry hentry heq
  · intro entry hmem
    rcases List.mem_cons.mp hmem with heq | hold
    · rw [heq]
      exact ⟨owner, howner, hhandle, hchannel, hlisted⟩
    · exact hguarded.entries entry hold
  · intro task hmem htask
    apply Or.inr
    rcases hguarded.listed task hmem htask with
      ⟨pending, hins⟩ | ⟨entry, hentry, hsame⟩
    · rw [hphase] at hins
      cases hins
      exact ⟨_, List.mem_cons_self, rfl, rfl⟩
    · exact ⟨entry, List.mem_cons_of_mem _ hentry, hsame⟩
  · intro other handle' hins
    obtain ⟨pending, hins⟩ := hins
    cases hins
  · exact hguarded.aborts
  · exact hguarded.removals

omit [DecidableEq Id] in
/-- A task which has no entry is over. -/
theorem Guarded.forget (hguarded : state.Guarded) {handle : ℕ}
    {removals : List (ℕ × ℕ)}
    (hsilent : ∀ task ∈ state.tasks, task.handle = handle →
      task.listed = false)
    (hremovals : ∀ removal ∈ removals, removal.1 = removal.2) :
    Guarded { state with
      tasks := state.tasks.filter fun other => other.handle ≠ handle
      removals := removals } := by
  have hkept : ∀ task ∈ state.tasks, task.listed = true →
      task ∈ state.tasks.filter fun other => other.handle ≠ handle := by
    intro task hmem hlisted
    rw [List.mem_filter]
    refine ⟨hmem, ?_⟩
    rw [decide_eq_true_eq]
    intro heq
    have hunlisted := hsilent task hmem heq
    rw [hlisted] at hunlisted
    cases hunlisted
  constructor
  · exact hguarded.handles.sublist ((List.filter_sublist).map _)
  · exact fun task hmem => hguarded.fresh task (List.mem_filter.mp hmem).1
  · exact hguarded.keys
  · intro entry hentry
    obtain ⟨task, htask, hhandle, hchannel, hlisted⟩ :=
      hguarded.entries entry hentry
    exact ⟨task, hkept task htask hlisted, hhandle, hchannel, hlisted⟩
  · exact fun task hmem =>
      hguarded.listed task (List.mem_filter.mp hmem).1
  · intro channel other hins
    obtain ⟨⟨task, htask, hhandle, hchannel, hlisted⟩, hothers⟩ :=
      hguarded.inserting channel other hins
    exact ⟨⟨task, hkept task htask hlisted, hhandle, hchannel, hlisted⟩,
      hothers⟩
  · exact hguarded.aborts
  · exact hremovals

theorem Guarded.spawn (hguarded : before.Guarded) {channel : Id}
    {rest : List Id} (hphase : before.phase = .working (channel :: rest))
    (habsent : before.containsKey channel = false) :
    Guarded { before with
      tasks := before.tasks ++ [⟨before.nextHandle, channel, false, true⟩]
      nextHandle := before.nextHandle + 1
      phase := .inserting rest channel before.nextHandle } := by
  have hlast : (⟨before.nextHandle, channel, false, true⟩ : Redemption Id) ∈
      before.tasks ++ [⟨before.nextHandle, channel, false, true⟩] :=
    List.mem_append_right _ (List.mem_singleton.mpr rfl)
  have hnew : before.nextHandle ∉ before.tasks.map Redemption.handle := by
    intro hmem
    obtain ⟨task, htask, heq⟩ := List.mem_map.mp hmem
    exact absurd heq (hguarded.fresh task htask).ne
  constructor
  · rw [List.map_append, List.map_singleton]
    exact List.nodup_append_comm.mp (List.nodup_cons.mpr
      ⟨hnew, hguarded.handles⟩)
  · intro task hmem
    rcases List.mem_append.mp hmem with hold | hmem
    · exact (hguarded.fresh task hold).trans (Nat.lt_succ_self _)
    · rw [List.mem_singleton.mp hmem]
      exact Nat.lt_succ_self _
  · exact hguarded.keys
  · intro entry hentry
    obtain ⟨task, htask, howner⟩ := hguarded.entries entry hentry
    exact ⟨task, List.mem_append_left _ htask, howner⟩
  · intro task hmem hlisted
    rcases List.mem_append.mp hmem with hold | hmem
    · rcases hguarded.listed task hold hlisted with
        ⟨pending, hins⟩ | hentry
      · rw [hphase] at hins
        cases hins
      · exact Or.inr hentry
    · rw [List.mem_singleton.mp hmem]
      exact Or.inl ⟨rest, rfl⟩
  · intro other handle hins
    obtain ⟨pending, hins⟩ := hins
    cases hins
    refine ⟨⟨_, hlast, rfl, rfl, rfl⟩, ?_⟩
    intro entry hentry
    constructor
    · obtain ⟨task, htask, hhandle, _⟩ := hguarded.entries entry hentry
      have hlt := hguarded.fresh task htask
      rw [hhandle] at hlt
      exact hlt.ne
    · intro heq
      by_contra hlater
      have hseen : before.containsKey channel = true := by
        unfold containsKey
        rw [List.any_eq_true]
        refine ⟨entry, hentry, ?_⟩
        simp only [heq, decide_true, Bool.true_and, decide_eq_true_eq]
        exact Nat.lt_of_not_le hlater
      rw [habsent] at hseen
      cases hseen
  · exact hguarded.aborts
  · exact hguarded.removals

omit [DecidableEq Id] in
/-- The strategy turns to other channels, and time passes. -/
theorem Guarded.turn (hguarded : before.Guarded) {now : ℕ}
    {phase : RunnerPhase Id} (hnow : before.now ≤ now)
    (hphase : phase = before.phase ∨ ∃ rest pending,
      before.phase = .working rest ∧ phase = .working pending) :
    Guarded { before with now := now, phase := phase } := by
  have hins : ∀ channel handle,
      Inserting { before with now := now, phase := phase } channel handle ↔
        before.Inserting channel handle := by
    intro channel handle
    rcases hphase with heq | ⟨rest, pending, hbefore, hafter⟩
    · rw [heq]
      exact Iff.rfl
    · constructor
      · intro hinserting
        obtain ⟨_, hinserting⟩ := hinserting
        rw [hafter] at hinserting
        cases hinserting
      · intro hinserting
        obtain ⟨_, hinserting⟩ := hinserting
        rw [hbefore] at hinserting
        cases hinserting
  constructor
  · exact hguarded.handles
  · exact hguarded.fresh
  · exact hguarded.keys
  · exact hguarded.entries
  · intro task hmem hlisted
    rw [hins]
    exact hguarded.listed task hmem hlisted
  · intro channel handle hinserting
    rw [hins] at hinserting
    obtain ⟨howner, hothers⟩ := hguarded.inserting channel handle hinserting
    refine ⟨howner, fun entry hentry => ?_⟩
    exact ⟨(hothers entry hentry).1, fun heq =>
      ((hothers entry hentry).2 heq).trans hnow⟩
  · exact hguarded.aborts
  · exact hguarded.removals

omit [DecidableEq Id] in
theorem Guarded.finish (hguarded : before.Guarded) (handle : ℕ) :
    Guarded { before with
      tasks := before.tasks.map fun task =>
        if task.handle = handle then { task with finishing := true }
        else task } := by
  have hkept : ∀ task ∈ before.tasks.map (fun task =>
      if task.handle = handle then { task with finishing := true } else task),
      ∃ other ∈ before.tasks, other.handle = task.handle ∧
        other.channel = task.channel ∧ other.listed = task.listed := by
    intro task hmem
    obtain ⟨other, hother, heq⟩ := List.mem_map.mp hmem
    refine ⟨other, hother, ?_⟩
    rw [← heq]
    split
    · exact ⟨rfl, rfl, rfl⟩
    · exact ⟨rfl, rfl, rfl⟩
  have hthere : ∀ task ∈ before.tasks, ∃ other ∈ before.tasks.map (fun task =>
      if task.handle = handle then { task with finishing := true } else task),
      other.handle = task.handle ∧ other.channel = task.channel ∧
        other.listed = task.listed := by
    intro task hmem
    refine ⟨_, List.mem_map_of_mem hmem, ?_⟩
    split
    · exact ⟨rfl, rfl, rfl⟩
    · exact ⟨rfl, rfl, rfl⟩
  constructor
  · dsimp only
    rw [List.map_map]
    have hsame : Redemption.handle ∘ (fun task : Redemption Id =>
        if task.handle = handle then { task with finishing := true }
        else task) = Redemption.handle := by
      funext task
      dsimp only [Function.comp]
      split
      · rfl
      · rfl
    rw [hsame]
    exact hguarded.handles
  · intro task hmem
    obtain ⟨other, hother, hhandle, _⟩ := hkept task hmem
    rw [← hhandle]
    exact hguarded.fresh other hother
  · exact hguarded.keys
  · intro entry hentry
    obtain ⟨task, htask, hhandle, hchannel, hlisted⟩ :=
      hguarded.entries entry hentry
    obtain ⟨other, hother, hhandle', hchannel', hlisted'⟩ :=
      hthere task htask
    exact ⟨other, hother, hhandle'.trans hhandle, hchannel'.trans hchannel,
      hlisted'.trans hlisted⟩
  · intro task hmem hlisted
    obtain ⟨other, hother, hhandle, hchannel, hlisted'⟩ := hkept task hmem
    have hbefore := hguarded.listed other hother (hlisted'.trans hlisted)
    rw [hhandle, hchannel] at hbefore
    exact hbefore
  · intro channel other hins
    obtain ⟨⟨task, htask, hhandle, hchannel, hlisted⟩, hothers⟩ :=
      hguarded.inserting channel other hins
    obtain ⟨task', htask', hhandle', hchannel', hlisted'⟩ := hthere task htask
    exact ⟨⟨task', htask', hhandle'.trans hhandle, hchannel'.trans hchannel,
      hlisted'.trans hlisted⟩, hothers⟩
  · exact hguarded.aborts
  · exact hguarded.removals

/-- A task in its last poll removes its own entry and ends. -/
theorem Guarded.invalidate (hguarded : before.Guarded) {handle : ℕ}
    {task : Redemption Id}
    (htask : before.tasks.find? (fun task =>
      task.handle = handle && task.finishing) = some task)
    (hturn : before.InTurn (.invalidate handle)) :
    Guarded { before.remove task.channel .explicit with
      tasks := (before.remove task.channel .explicit).tasks.filter
        fun other => other.handle ≠ handle
      removals := before.removals ++
        ((before.entryOf task.channel).map fun entry =>
          (handle, entry.task)).toList } := by
  have hmem := List.mem_of_find?_eq_some htask
  have hfound := List.find?_some htask
  rw [Bool.and_eq_true, decide_eq_true_eq] at hfound
  obtain ⟨hnotins, hfree⟩ := hturn task hmem hfound.1
  cases hentry : before.entryOf task.channel with
  | none =>
      have hnone := entryOf_eq_none.mp hentry
      have hremove : before.remove task.channel .explicit = before := by
        unfold remove
        rw [hentry]
      rw [hremove]
      refine hguarded.forget ?_ ?_
      · intro other hother hhandle
        have heq := hguarded.task_unique hother hmem
          (hhandle.trans hfound.1.symm)
        rw [heq]
        by_contra hlisted
        rw [Bool.not_eq_false] at hlisted
        rcases hguarded.listed task hmem hlisted with
          ⟨pending, hins⟩ | ⟨entry, hin, _, hchannel⟩
        · rw [hfound.1] at hins
          exact hnotins pending _ hins
        · exact hnone entry hin hchannel
      · intro removal hremoval
        rw [Option.map_none, Option.toList_none, List.append_nil] at hremoval
        exact hguarded.removals removal hremoval
  | some entry =>
      obtain ⟨hin, hchannel⟩ := mem_of_entryOf hentry
      -- The entry is the task's own.
      have hown : entry.task = handle := by
        have hlisted : task.listed = true := by
          by_contra hnot
          rw [Bool.not_eq_true] at hnot
          exact hfree hnot entry hin hchannel
        rcases hguarded.listed task hmem hlisted with
          ⟨pending, hins⟩ | ⟨other, hother, howner, hother'⟩
        · rw [hfound.1] at hins
          exact absurd hins (hnotins pending _)
        · have heq := hguarded.entry_unique hother hin
            (hother'.trans hchannel.symm)
          rw [← heq, howner]
          exact hfound.1
      have hcause : RemovalCause.explicit ≠ .size := by
        intro heq
        cases heq
      rw [remove_of_entry hcause hentry]
      have hremoved := hguarded.abortDue hin (Or.inr (by
        intro other hother hhandle
        have heq := hguarded.task_unique hother hmem
          (hhandle.trans (hown.trans hfound.1.symm))
        rw [heq]
        exact hfound.2))
      refine hremoved.forget ?_ ?_
      · intro other hother hhandle
        rw [← hown] at hhandle
        exact (abort_silences _ _).silent other hother hhandle
      · intro removal hremoval
        rcases List.mem_append.mp hremoval with hold | hnew
        · exact hguarded.removals removal hold
        · rw [Option.map_some, Option.toList_some] at hnew
          rw [List.mem_singleton.mp hnew]
          exact hown.symm

/-- The old entry of the channel, if it is still there, has expired. -/
theorem Guarded.insertOver (hguarded : before.Guarded) {rest : List Id}
    {channel : Id} {handle expiresAt : ℕ}
    (hphase : before.phase = .inserting rest channel handle) :
    Guarded { before.remove channel .replaced with
      runningRedemptions := ⟨channel, handle, expiresAt⟩ ::
        (before.remove channel .replaced).runningRedemptions
      phase := .working rest } := by
  have hdue := (hguarded.inserting channel handle ⟨rest, hphase⟩).2
  cases hentry : before.entryOf channel with
  | none =>
      have hremove : before.remove channel .replaced = before := by
        unfold remove
        rw [hentry]
      rw [hremove]
      exact hguarded.insert hphase (entryOf_eq_none.mp hentry)
  | some entry =>
      obtain ⟨hin, hchannel⟩ := mem_of_entryOf hentry
      have hcause : RemovalCause.replaced ≠ .size := by
        intro heq
        cases heq
      rw [remove_of_entry hcause hentry]
      have hremoved := hguarded.abortDue hin
        (Or.inl ((hdue entry hin).2 hchannel))
      refine hremoved.insert hphase ?_
      intro other hother
      rw [← hchannel]
      exact (mem_without.mp hother).2

theorem remove_phase (channel : Id) (cause : RemovalCause) :
    (state.remove channel cause).phase = state.phase := by
  unfold remove
  split
  · rfl
  · cases cause with
    | expired => split <;> rfl
    | explicit => split <;> rfl
    | replaced => split <;> rfl
    | size => split <;> rfl

theorem next_guarded {action : RedeemAction Id} (hguarded : before.Guarded)
    (hturn : before.InTurn action)
    (hnext : next cfg before action = some after) :
    after.phase = .dropped ∨ after.Guarded := by
  cases action with
  | pass now =>
      simp only [next] at hnext
      split at hnext
      · rename_i hle
        cases hnext
        exact Or.inr (hguarded.turn hle (Or.inl rfl))
      · cases hnext
  | tick channels =>
      simp only [next] at hnext
      split at hnext
      · rename_i hphase
        cases hnext
        exact Or.inr (hguarded.turn le_rfl (Or.inr ⟨_, _, hphase, rfl⟩))
      · cases hnext
  | winningTicket amount index channel =>
      simp only [next] at hnext
      split at hnext
      · rename_i hphase
        cases hnext
        exact Or.inr (hguarded.turn le_rfl (Or.inr ⟨_, _, hphase, rfl⟩))
      · cases hnext
  | closureInitiated channel incoming pendingToClose =>
      simp only [next] at hnext
      split at hnext
      · rename_i hphase
        cases hnext
        exact Or.inr (hguarded.turn le_rfl (Or.inr ⟨_, _, hphase, rfl⟩))
      · cases hnext
  | enqueue =>
      simp only [next] at hnext
      split at hnext
      · rename_i channel rest hphase
        split at hnext
        · cases hnext
          exact Or.inr (hguarded.turn le_rfl (Or.inr ⟨_, _, hphase, rfl⟩))
        · rename_i habsent
          rw [Bool.not_eq_true] at habsent
          cases hnext
          exact Or.inr (hguarded.spawn hphase habsent)
      · cases hnext
  | insert =>
      simp only [next] at hnext
      split at hnext
      · rename_i hphase
        cases hnext
        exact Or.inr (hguarded.insertOver hphase)
      · cases hnext
  | complete handle =>
      cases hnext
      exact Or.inr (hguarded.finish handle)
  | invalidate handle =>
      simp only [next] at hnext
      split at hnext
      · cases hnext
      · rename_i htask
        cases hnext
        exact Or.inr (hguarded.invalidate htask hturn)
  | expire channel =>
      simp only [next] at hnext
      split at hnext
      · rename_i entry hentry
        split at hnext
        · rename_i hexpired
          cases hnext
          have hcause : RemovalCause.expired ≠ .size := by
            intro heq
            cases heq
          rw [remove_of_entry hcause hentry]
          exact Or.inr (hguarded.abortDue (mem_of_entryOf hentry).1
            (Or.inl hexpired))
        · cases hnext
      · cases hnext
  | evict channel =>
      simp only [next] at hnext
      split at hnext
      · split at hnext
        · rename_i entry hentry
          cases hnext
          obtain ⟨hin, hchannel⟩ := mem_of_entryOf hentry
          rw [← hchannel]
          exact Or.inr (hguarded.takeOut hin (delist_silences _) rfl
            hguarded.aborts)
        · cases hnext
      · cases hnext
  | drop =>
      simp only [next] at hnext
      split at hnext
      · cases hnext
        exact Or.inl rfl
      · cases hnext

theorem next_dropped {action : RedeemAction Id}
    (hdropped : before.phase = .dropped)
    (hnext : next cfg before action = some after) :
    after.phase = .dropped := by
  cases action with
  | pass now =>
      simp only [next] at hnext
      split at hnext
      · cases hnext
        exact hdropped
      · cases hnext
  | complete handle =>
      cases hnext
      exact hdropped
  | invalidate handle =>
      simp only [next] at hnext
      split at hnext
      · cases hnext
      · cases hnext
        exact (remove_phase _ _).trans hdropped
  | expire channel =>
      simp only [next] at hnext
      split at hnext
      · split at hnext
        · cases hnext
          exact (remove_phase _ _).trans hdropped
        · cases hnext
      · cases hnext
  | evict channel =>
      simp only [next] at hnext
      split at hnext
      · split at hnext
        · cases hnext
          exact hdropped
        · cases hnext
      · cases hnext
  | tick | winningTicket | closureInitiated | enqueue | insert | drop =>
      simp [next, hdropped] at hnext

/-! ## Entries and running tasks -/

theorem Guarded.entriesOf_length (hguarded : state.Guarded) (channel : Id) :
    (state.entriesOf channel).length ≤ 1 := by
  have hsublist : (state.runningRedemptions.filter fun entry =>
      entry.channel = channel).Sublist state.runningRedemptions :=
    List.filter_sublist
  have hnodup := hguarded.keys.sublist (hsublist.map CacheEntry.channel)
  have hall : ∀ key ∈ (state.runningRedemptions.filter fun entry =>
      entry.channel = channel).map CacheEntry.channel, key = channel := by
    intro key hmem
    obtain ⟨entry, hentry, heq⟩ := List.mem_map.mp hmem
    rw [← heq]
    exact of_decide_eq_true (List.mem_filter.mp hentry).2
  rw [List.eq_replicate_of_mem hall, List.nodup_replicate,
    List.length_map] at hnodup
  unfold entriesOf
  rw [List.length_map]
  exact hnodup

theorem Guarded.listedTasksOf (hguarded : state.Guarded)
    (hworking : ∃ pending, state.phase = .working pending) (channel : Id) :
    state.listedTasksOf channel = state.entriesOf channel := by
  obtain ⟨pending, hphase⟩ := hworking
  have hlength := hguarded.entriesOf_length channel
  have hnodup : (state.listedTasksOf channel).Nodup :=
    hguarded.handles.sublist ((List.filter_sublist).map _)
  have hmem : ∀ handle, handle ∈ state.listedTasksOf channel ↔
      handle ∈ state.entriesOf channel := by
    intro handle
    unfold RedeemState.listedTasksOf entriesOf
    simp only [List.mem_map, List.mem_filter, Bool.and_eq_true,
      decide_eq_true_eq]
    constructor
    · intro htask
      obtain ⟨task, ⟨htask, hchannel, hlisted⟩, hhandle⟩ := htask
      rcases hguarded.listed task htask hlisted with
        ⟨_, hins⟩ | ⟨entry, hentry, howner, hsame⟩
      · rw [hphase] at hins
        cases hins
      · exact ⟨entry, ⟨hentry, hsame.trans hchannel⟩, howner.trans hhandle⟩
    · intro hentry
      obtain ⟨entry, ⟨hentry, hchannel⟩, hhandle⟩ := hentry
      obtain ⟨task, htask, howner, hsame, hlisted⟩ :=
        hguarded.entries entry hentry
      exact ⟨task, ⟨htask, hsame.trans hchannel, hlisted⟩,
        howner.trans hhandle⟩
  cases hentries : state.entriesOf channel with
  | nil =>
      rw [hentries] at hmem
      exact List.eq_nil_iff_forall_not_mem.mpr fun handle hin =>
        List.not_mem_nil ((hmem handle).mp hin)
  | cons handle rest =>
      rw [hentries, List.length_cons] at hlength
      have hrest : rest = [] := List.length_eq_zero_iff.mp (by omega)
      rw [hentries, hrest] at hmem
      rw [hrest, ← List.perm_singleton,
        List.perm_ext_iff_of_nodup hnodup (List.nodup_singleton handle)]
      exact hmem

omit [DecidableEq Id] in
theorem initial_guarded : (initial : RedeemState Id).Guarded := by
  refine ⟨List.nodup_nil, ?_, List.nodup_nil, ?_, ?_, ?_, ?_, ?_⟩
  · intro task hmem
    cases hmem
  · intro entry hmem
    cases hmem
  · intro task hmem
    cases hmem
  · intro channel handle hins
    obtain ⟨pending, hphase⟩ := hins
    cases hphase
  · intro aborted hmem
    cases hmem
  · intro removal hmem
    cases hmem

def DroppedOrGuarded (state : RedeemState Id) : Prop :=
  state.phase = .dropped ∨ state.Guarded

/-- Apart from tasks whose entry was taken away from them while they went on, a
channel has an entry exactly when one task for it is running, a finishing task
removes its own entry, and no running task is aborted unless its timeout has
elapsed or the strategy is dropped. -/
theorem redemptionGuard (cfg : AutoRedeemingStrategyConfig)
    (hreach : (autoRedeeming cfg).ReachableWithin InTurn state)
    (hrunning : state.phase ≠ .dropped) :
    ((∃ pending, state.phase = .working pending) → ∀ channel,
      state.listedTasksOf channel = state.entriesOf channel ∧
        (state.entriesOf channel).length ≤ 1) ∧
      (∀ removal ∈ state.removals, removal.1 = removal.2) ∧
      ∀ aborted ∈ state.aborts, aborted.2 = true := by
  have hkept : state.DroppedOrGuarded := by
    refine hreach.invariant ?_ ?_
    · intro start hinit
      cases hinit
      exact Or.inr initial_guarded
    · intro before action after hbefore hturn hnext
      rcases hbefore with hdropped | hguarded
      · exact Or.inl (next_dropped hdropped hnext)
      · exact next_guarded hguarded hturn hnext
  have hguarded := hkept.resolve_left hrunning
  exact ⟨fun hworking channel => ⟨hguarded.listedTasksOf hworking channel,
    hguarded.entriesOf_length channel⟩, hguarded.removals, hguarded.aborts⟩

def periodicConfig : AutoRedeemingStrategyConfig where
  redeemAllOnClose := true
  minimumRedeemTicketValue := HoprBalance.zero
  redeemOnWinning := false

/-- A redemption which completes, and one which goes on. -/
theorem redemptionGuard_two :
    ∃ state : RedeemState ℕ,
      (autoRedeeming periodicConfig).ReachableWithin InTurn state ∧
      state.entriesOf 2 = [1] ∧
      state.listedTasksOf 2 = state.entriesOf 2 := by
  have hinit : (autoRedeeming periodicConfig).ReachableWithin InTurn
      (initial : RedeemState ℕ) := .init rfl
  have hstarted := hinit.run
    [.tick [1, 2], .enqueue, .insert, .enqueue, .insert, .complete 0] ?_ rfl
  · have hended := @TransitionSystem.ReachableWithin.step _ _ _ _ _ _
      (.invalidate 0) hstarted ?_ rfl
    · exact ⟨_, hended, rfl, ((redemptionGuard periodicConfig hended
        (fun hdropped => by cases hdropped)).1 ⟨_, rfl⟩ 2).1⟩
    · intro task hmem hhandle
      fin_cases hmem
      · refine ⟨?_, ?_⟩
        · intro pending channel hphase
          cases hphase
        · intro hunlisted
          cases hunlisted
      · cases hhandle
  · intro before action hmem
    fin_cases hmem
    all_goals trivial

/-! ## A full cache -/

def startAll (channels : List Id) : List (RedeemAction Id) :=
  channels.flatMap fun _ => [.enqueue, .insert]

def started (state : RedeemState Id) (channel : Id) (rest : List Id) :
    RedeemState Id :=
  { state with
    runningRedemptions :=
      ⟨channel, state.nextHandle, state.now + redemptionTimeout⟩ ::
        state.runningRedemptions
    tasks := state.tasks ++ [⟨state.nextHandle, channel, false, true⟩]
    nextHandle := state.nextHandle + 1
    phase := .working rest }

theorem run_started {channel : Id} {rest : List Id}
    {actions : List (RedeemAction Id)}
    (hphase : before.phase = .working (channel :: rest))
    (hnew : ∀ entry ∈ before.runningRedemptions, entry.channel ≠ channel) :
    (autoRedeeming cfg).run before (.enqueue :: .insert :: actions) =
      (autoRedeeming cfg).run (before.started channel rest) actions := by
  have hnone : before.entryOf channel = none := entryOf_eq_none.mpr hnew
  have habsent : before.containsKey channel = false := by
    unfold containsKey
    rw [List.any_eq_false]
    intro entry hmem
    simp [hnew entry hmem]
  have hspawn : next cfg before .enqueue = some { before with
      tasks := before.tasks ++ [⟨before.nextHandle, channel, false, true⟩]
      nextHandle := before.nextHandle + 1
      phase := .inserting rest channel before.nextHandle } := by
    simp [next, hphase, habsent]
  have hinsert : next cfg { before with
      tasks := before.tasks ++ [⟨before.nextHandle, channel, false, true⟩]
      nextHandle := before.nextHandle + 1
      phase := .inserting rest channel before.nextHandle } .insert =
      some (before.started channel rest) := by
    unfold entryOf at hnone
    simp [next, remove, entryOf, hnone, started]
  simp only [TransitionSystem.run, autoRedeeming, hspawn, hinsert]

/-- New channels each get a task and an entry. -/
theorem run_startAll {channels : List Id} (hnodup : channels.Nodup)
    (hphase : before.phase = .working channels)
    (hnew : ∀ channel ∈ channels, ∀ entry ∈ before.runningRedemptions,
      entry.channel ≠ channel) :
    ∃ after, (autoRedeeming cfg).run before (startAll channels) = some after ∧
      after.phase = .working [] ∧
      after.runningRedemptions.length =
        before.runningRedemptions.length + channels.length ∧
      (∀ entry ∈ before.runningRedemptions,
        entry ∈ after.runningRedemptions) ∧
      ∀ channel, channel ∉ channels →
        after.tasksOf channel = before.tasksOf channel := by
  induction channels generalizing before with
  | nil =>
      exact ⟨before, rfl, hphase, rfl, fun _ hmem => hmem, fun _ _ => rfl⟩
  | cons channel rest ih =>
      obtain ⟨hfresh, hrest⟩ := List.nodup_cons.mp hnodup
      have hstarted : ∀ other ∈ rest,
          ∀ entry ∈ (before.started channel rest).runningRedemptions,
            entry.channel ≠ other := by
        intro other hother entry hmem
        rcases List.mem_cons.mp hmem with heq | hold
        · rw [heq]
          intro hsame
          dsimp only at hsame
          rw [← hsame] at hother
          exact hfresh hother
        · exact hnew other (List.mem_cons_of_mem _ hother) entry hold
      obtain ⟨after, hrun, hafter, hlength, hkept, htasks⟩ :=
        @ih (before.started channel rest) hrest rfl hstarted
      refine ⟨after, ?_, hafter, ?_, ?_, ?_⟩
      · have hfirst := hnew channel List.mem_cons_self
        exact (run_started hphase hfirst).trans hrun
      · rw [hlength]
        simp only [started, List.length_cons]
        omega
      · exact fun entry hmem => hkept entry (List.mem_cons_of_mem _ hmem)
      · intro other hother
        rw [List.mem_cons, not_or] at hother
        obtain ⟨hne, hother⟩ := hother
        rw [htasks other hother]
        simp [tasksOf, started, List.filter_append, Ne.symm hne]

theorem tasksOf_delist (handle : ℕ) (channel : Id) :
    (state.delist handle).tasksOf channel = state.tasksOf channel := by
  unfold tasksOf delist
  rw [List.filter_map, List.map_map]
  have hchannel : (fun task : Redemption Id =>
      decide (task.channel = channel)) ∘ (fun task =>
        if task.handle = handle then { task with listed := false }
        else task) = fun task => decide (task.channel = channel) := by
    funext task
    dsimp only [Function.comp]
    split
    · rfl
    · rfl
  have hhandle : Redemption.handle ∘ (fun task : Redemption Id =>
      if task.handle = handle then { task with listed := false } else task) =
      Redemption.handle := by
    funext task
    dsimp only [Function.comp]
    split
    · rfl
    · rfl
  rw [hchannel, hhandle]

/-- With more channels than the cache holds, the entry of the first one is
given up while its task goes on. -/
theorem reachable_evicted {rest : List ℕ} (hnodup : rest.Nodup)
    (hnew : 0 ∉ rest) (hfull : redemptionCacheCapacity ≤ rest.length) :
    ∃ state : RedeemState ℕ,
      (autoRedeeming periodicConfig).Reachable state ∧
      state.phase = .working [] ∧ state.tasksOf 0 = [0] ∧
      state.entriesOf 0 = [] := by
  have hinit : (autoRedeeming periodicConfig).Reachable
      (initial : RedeemState ℕ) := .init rfl
  have htick : (autoRedeeming periodicConfig).Reachable
      { (initial : RedeemState ℕ) with phase := .working (0 :: rest) } :=
    hinit.run [.tick (0 :: rest)] rfl
  have hothers : ∀ channel ∈ rest, ∀ entry ∈ (started { (initial :
      RedeemState ℕ) with phase := .working (0 :: rest) } 0
        rest).runningRedemptions, entry.channel ≠ channel := by
    intro channel hmem entry hentry heq
    rw [List.mem_singleton.mp hentry] at heq
    dsimp only at heq
    rw [← heq] at hmem
    exact hnew hmem
  obtain ⟨after, hrun, hphase, hlength, hkept, htasks⟩ :=
    @run_startAll _ _ periodicConfig _ _ hnodup rfl hothers
  have hfirst := hkept _ List.mem_cons_self
  have hreach : (autoRedeeming periodicConfig).Reachable after := by
    refine htick.run (.enqueue :: .insert :: startAll rest) ?_
    refine (run_started rfl ?_).trans hrun
    intro entry hmem
    cases hmem
  cases hentry : after.entryOf 0 with
  | none => exact absurd rfl (entryOf_eq_none.mp hentry _ hfirst)
  | some entry =>
      have hover : redemptionCacheCapacity <
          after.runningRedemptions.length := by
        rw [hlength]
        simp only [started, List.length_cons]
        omega
      have hevict : (autoRedeeming periodicConfig).next after (.evict 0) =
          some (delist { after with
            runningRedemptions := after.without 0 } entry.task) := by
        simp [autoRedeeming, next, hover, hentry, evictionListener]
      refine ⟨_, TransitionSystem.ReachableWithin.step hreach trivial hevict,
        hphase, ?_, ?_⟩
      · rw [tasksOf_delist]
        exact htasks 0 hnew
      · unfold entriesOf delist without
        simp [List.filter_filter]

/-- A cache which is full gives up the entry of a task which goes on. -/
theorem redemptionGuard_fullCache :
    ¬ ∀ (cfg : AutoRedeemingStrategyConfig) (state : RedeemState ℕ),
        (autoRedeeming cfg).Reachable state → state.phase ≠ .dropped →
        ((∃ pending, state.phase = .working pending) → ∀ channel,
          state.tasksOf channel = state.entriesOf channel ∧
            (state.entriesOf channel).length ≤ 1) ∧
          (∀ removal ∈ state.removals, removal.1 = removal.2) ∧
          ∀ aborted ∈ state.aborts, aborted.2 = true := by
  intro hclaim
  -- One channel more than the cache holds.
  obtain ⟨state, hreach, hphase, htasks, hentries⟩ :=
    @reachable_evicted (List.range' 1 redemptionCacheCapacity)
      List.nodup_range' (by simp) (by simp)
  have hrunning : state.phase ≠ .dropped := by
    rw [hphase]
    intro heq
    cases heq
  have hsame := ((hclaim periodicConfig state hreach hrunning).1
    ⟨[], hphase⟩ 0).1
  rw [htasks, hentries] at hsame
  cases hsame

end RedeemState

end HoprStrategy.AutoRedeeming
