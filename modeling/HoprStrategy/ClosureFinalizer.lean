import HoprStrategy.Library.Spacing
import HoprStrategy.Library.TransitionSystem

/-!
# The closure finalizer

The legacy strategy which only finalizes: each tick asks the chain for the
node's own channels whose grace period has ended, but not too long ago, and
submits a close transaction for each.  A submission which fails, or never
lands, is made again by the next tick.  The chain changes meanwhile, and the
stream of channels is pulled between one submission and the next.

The main theorem counts the submissions: a channel which stays pending is tried
exactly once by each tick of its window, and so about as often as the
interval fits into the overdue period.
-/

namespace HoprStrategy.ClosureFinalizer

open Library

/-! ## Channels and their selection -/

inductive ChannelStatusDiscriminants where
  | closed
  | open
  | pendingToClose
  deriving DecidableEq

/-- Times are in milliseconds. -/
inductive ChannelStatus where
  | closed
  | open
  | pendingToClose (closureTime : ℤ)
  deriving DecidableEq

def ChannelStatus.discriminant : ChannelStatus → ChannelStatusDiscriminants
  | .closed => .closed
  | .open => .open
  | .pendingToClose _ => .pendingToClose

structure ClosureFinalizerStrategyConfig where
  maxClosureOverdue : ℕ

structure TickSummary where
  due : ℕ
  submitted : ℕ
  failed : ℕ
  deriving DecidableEq

def TickSummary.default : TickSummary := ⟨0, 0, 0⟩

section

variable (Id Address : Type)

structure ChannelEntry where
  id : Id
  source : Address
  destination : Address
  status : ChannelStatus
  deriving DecidableEq

structure ChannelSelector where
  source : Option Address
  allowedStates : List ChannelStatusDiscriminants
  closureTimeRange : Option (ℤ × ℤ)

/-- A stream of channels which the chain has opened.  What the chain held at
some time since is `seen`, what it held all the time `unchanged`. -/
structure ChannelStream where
  selector : ChannelSelector Address
  seen : List (ChannelEntry Id Address)
  unchanged : List (ChannelEntry Id Address)
  yielded : List Id

/-- A tick which is over, with the channels it tried to close and whether the
transaction was submitted.  Without a summary, the chain gave no stream. -/
structure Tick where
  began : ℤ
  attempts : List (ChannelEntry Id Address × Bool)
  summary : Option TickSummary

/-- A tick which is under way.  The first has no timer: the interval is
created after it. -/
structure TickPass where
  began : ℤ
  timer : Option ℤ
  stream : ChannelStream Id Address
  summary : TickSummary
  attempts : List (ChannelEntry Id Address × Bool)

inductive FinalizerPhase where
  | starting (launched : ℤ)
  | waiting (since timer : ℤ)
  | pulling (pass : TickPass Id Address)
  | closing (pass : TickPass Id Address) (channel : ChannelEntry Id Address)

structure FinalizerState where
  now : ℤ
  channels : List (ChannelEntry Id Address)
  phase : FinalizerPhase Id Address
  ticks : List (Tick Id Address)

inductive FinalizerAction where
  | pass (now : ℤ)
  /-- The chain changes. -/
  | change (channels : List (ChannelEntry Id Address))
  /-- A tick begins, and the chain gives a stream or an error. -/
  | begin (opened : Bool)
  | next (channel : Option (ChannelEntry Id Address))
  | closed (submitted : Bool)

end

variable {Id Address : Type} [DecidableEq Id] [DecidableEq Address]

namespace ChannelSelector

def default : ChannelSelector Address := ⟨none, [], none⟩

def withSource (selector : ChannelSelector Address) (source : Address) :
    ChannelSelector Address :=
  { selector with source := some source }

def withAllowedStates (selector : ChannelSelector Address)
    (states : List ChannelStatusDiscriminants) : ChannelSelector Address :=
  { selector with allowedStates := states }

def withClosureTimeRange (selector : ChannelSelector Address)
    (range : ℤ × ℤ) : ChannelSelector Address :=
  { selector with closureTimeRange := some range }

/-- The range of closure times is a condition on pending channels only. -/
def satisfies (selector : ChannelSelector Address)
    (channel : ChannelEntry Id Address) : Bool :=
  (match selector.source with
    | none => true
    | some source => source = channel.source) &&
  (selector.allowedStates.isEmpty ||
    selector.allowedStates.contains channel.status.discriminant) &&
  match selector.closureTimeRange, channel.status with
  | some (first, last), .pendingToClose closureTime =>
      first ≤ closureTime && closureTime ≤ last
  | _, _ => true

end ChannelSelector

/-! ## Ticks -/

/-- The node's own channels which are due at `now`. -/
def dueChannels (me : Address) (cfg : ClosureFinalizerStrategyConfig)
    (now : ℤ) : ChannelSelector Address :=
  ChannelSelector.default.withSource me
    |>.withAllowedStates [.pendingToClose]
    |>.withClosureTimeRange (now - cfg.maxClosureOverdue, now)

namespace ChannelStream

def opened (selector : ChannelSelector Address)
    (channels : List (ChannelEntry Id Address)) : ChannelStream Id Address :=
  ⟨selector, channels, channels, []⟩

def observe (stream : ChannelStream Id Address)
    (channels : List (ChannelEntry Id Address)) : ChannelStream Id Address :=
  { stream with
    seen := stream.seen ++ channels
    unchanged := stream.unchanged.filter (· ∈ channels) }

def yield (stream : ChannelStream Id Address)
    (channel : ChannelEntry Id Address) : ChannelStream Id Address :=
  { stream with yielded := stream.yielded ++ [channel.id] }

end ChannelStream

namespace TickPass

def observe (pass : TickPass Id Address)
    (channels : List (ChannelEntry Id Address)) : TickPass Id Address :=
  { pass with stream := pass.stream.observe channels }

def pulled (pass : TickPass Id Address) (channel : ChannelEntry Id Address) :
    TickPass Id Address :=
  { pass with
    stream := pass.stream.yield channel
    summary := { pass.summary with due := pass.summary.due + 1 } }

def submitted (pass : TickPass Id Address)
    (channel : ChannelEntry Id Address) : TickPass Id Address :=
  { pass with
    summary := { pass.summary with submitted := pass.summary.submitted + 1 }
    attempts := pass.attempts ++ [(channel, true)] }

def failed (pass : TickPass Id Address)
    (channel : ChannelEntry Id Address) : TickPass Id Address :=
  { pass with
    summary := { pass.summary with failed := pass.summary.failed + 1 }
    attempts := pass.attempts ++ [(channel, false)] }

def record (pass : TickPass Id Address) : Tick Id Address :=
  ⟨pass.began, pass.attempts, some pass.summary⟩

end TickPass

namespace FinalizerState

variable (me : Address) (cfg : ClosureFinalizerStrategyConfig) (interval : ℕ)

/-- The interval is created when the first tick is over, and set again
whenever it is polled successfully. -/
def await (state : FinalizerState Id Address) (timer : Option ℤ)
    (tick : Tick Id Address) : FinalizerState Id Address :=
  { state with
    phase := .waiting state.now (timer.getD (state.now + interval))
    ticks := state.ticks ++ [tick] }

def beginTick (state : FinalizerState Id Address) (timer : Option ℤ)
    (opened : Bool) : FinalizerState Id Address :=
  if opened then
    { state with
      phase := .pulling
        ⟨state.now, timer,
          .opened (dueChannels me cfg state.now) state.channels, .default,
          []⟩ }
  else state.await interval timer ⟨state.now, [], none⟩

def step (state : FinalizerState Id Address) :
    FinalizerAction Id Address → Option (FinalizerState Id Address)
  | .pass now =>
      if state.now ≤ now then some { state with now := now } else none
  | .change channels =>
      some { state with
        channels := channels
        phase := match state.phase with
          | .pulling pass => .pulling (pass.observe channels)
          | .closing pass channel => .closing (pass.observe channels) channel
          | phase => phase }
  | .begin opened =>
      match state.phase with
      | .starting _ => some (state.beginTick me cfg interval none opened)
      | .waiting _ timer =>
          if timer ≤ state.now then
            some (state.beginTick me cfg interval
              (some (state.now + interval)) opened)
          else none
      | _ => none
  | .next channel =>
      match state.phase, channel with
      | .pulling pass, some channel =>
          some { state with phase := .closing (pass.pulled channel) channel }
      | .pulling pass, none =>
          some (state.await interval pass.timer pass.record)
      | _, _ => none
  | .closed submitted =>
      match state.phase with
      | .closing pass channel =>
          some { state with
            phase := .pulling
              (if submitted then pass.submitted channel
                else pass.failed channel) }
      | _ => none

end FinalizerState

/-- The strategy of the node `me`, from its launch. -/
def closureFinalizer (me : Address) (cfg : ClosureFinalizerStrategyConfig)
    (interval : ℕ) :
    TransitionSystem (FinalizerState Id Address)
      (FinalizerAction Id Address) where
  init state := (state.channels.map (·.id)).Nodup ∧
    state.phase = .starting state.now ∧ state.ticks = []
  next := FinalizerState.step me cfg interval

/-! ## The chain and the clock -/

/-- What a stream of channels promises: it yields channels which satisfy the
selector, none of them twice, and ends with every such channel yielded which
was there all the time. -/
def ChannelStream.Gives (stream : ChannelStream Id Address) :
    Option (ChannelEntry Id Address) → Prop
  | some channel => channel ∈ stream.seen ∧
      stream.selector.satisfies channel = true ∧ channel.id ∉ stream.yielded
  | none => ∀ channel ∈ stream.unchanged,
      stream.selector.satisfies channel = true → channel.id ∈ stream.yielded

/-- The chain has one channel of an id, and its streams keep their promise. -/
def Served (state : FinalizerState Id Address) :
    FinalizerAction Id Address → Prop
  | .change channels => (channels.map (·.id)).Nodup
  | .next channel =>
      match state.phase with
      | .pulling pass => pass.stream.Gives channel
      | _ => True
  | _ => True

/-- A timer is served within `lag`, and a tick is over within `duration`. -/
def Prompt (lag duration : ℕ) (state : FinalizerState Id Address) :
    FinalizerAction Id Address → Prop
  | .pass now =>
      match state.phase with
      | .starting launched => now ≤ launched + lag
      | .waiting since timer => now ≤ max since timer + lag
      | .pulling pass | .closing pass _ => now ≤ pass.began + duration
  | _ => True

def Usual (lag duration : ℕ) (state : FinalizerState Id Address)
    (action : FinalizerAction Id Address) : Prop :=
  Served state action ∧ Prompt lag duration state action

/-- The channel stays as it is. -/
def FinalizerAction.Keeps (channel : ChannelEntry Id Address) :
    FinalizerAction Id Address → Prop
  | .change channels => channel ∈ channels
  | _ => True

/-- No tick is under way. -/
def FinalizerPhase.Between : FinalizerPhase Id Address → Prop
  | .starting _ | .waiting _ _ => True
  | .pulling _ | .closing _ _ => False

instance decidableGives (stream : ChannelStream Id Address) :
    ∀ given, Decidable (stream.Gives given)
  | some channel => inferInstanceAs (Decidable (channel ∈ stream.seen ∧
      stream.selector.satisfies channel = true ∧
        channel.id ∉ stream.yielded))
  | none => inferInstanceAs (Decidable (∀ channel ∈ stream.unchanged,
      stream.selector.satisfies channel = true →
        channel.id ∈ stream.yielded))

instance decidableServed (state : FinalizerState Id Address) :
    ∀ action, Decidable (Served state action)
  | .change channels =>
      inferInstanceAs (Decidable (channels.map (·.id)).Nodup)
  | .next given =>
      match hphase : state.phase with
      | .pulling pass => decidable_of_iff (pass.stream.Gives given)
          (by rw [Served, hphase])
      | .starting _ | .waiting _ _ | .closing _ _ =>
          isTrue (by rw [Served, hphase]; trivial)
  | .pass _ | .begin _ | .closed _ => isTrue trivial

instance decidablePrompt (lag duration : ℕ)
    (state : FinalizerState Id Address) :
    ∀ action, Decidable (Prompt lag duration state action)
  | .pass now =>
      match hphase : state.phase with
      | .starting launched => decidable_of_iff (now ≤ launched + lag)
          (by rw [Prompt, hphase])
      | .waiting since timer => decidable_of_iff (now ≤ max since timer + lag)
          (by rw [Prompt, hphase])
      | .pulling pass | .closing pass _ =>
          decidable_of_iff (now ≤ pass.began + duration)
            (by rw [Prompt, hphase])
  | .change _ | .begin _ | .next _ | .closed _ => isTrue trivial

instance decidableUsual (lag duration : ℕ) (state : FinalizerState Id Address)
    (action : FinalizerAction Id Address) :
    Decidable (Usual lag duration state action) :=
  inferInstanceAs (Decidable (_ ∧ _))

instance decidableKeeps (channel : ChannelEntry Id Address) :
    ∀ action : FinalizerAction Id Address, Decidable (action.Keeps channel)
  | .change channels => inferInstanceAs (Decidable (channel ∈ channels))
  | .pass _ | .begin _ | .next _ | .closed _ => isTrue trivial

/-! ## One tick -/

omit [DecidableEq Id] in
theorem satisfies_dueChannels {me : Address}
    {cfg : ClosureFinalizerStrategyConfig} {now : ℤ}
    {channel : ChannelEntry Id Address} :
    (dueChannels me cfg now).satisfies channel = true ↔
      channel.source = me ∧ ∃ closureTime,
        channel.status = .pendingToClose closureTime ∧
          closureTime ≤ now ∧ now ≤ closureTime + cfg.maxClosureOverdue := by
  cases hstatus : channel.status with
  | closed | «open» =>
      simp [dueChannels, ChannelSelector.satisfies, hstatus,
        ChannelSelector.withSource, ChannelSelector.withAllowedStates,
        ChannelSelector.withClosureTimeRange, ChannelStatus.discriminant]
  | pendingToClose closureTime =>
      simp [dueChannels, ChannelSelector.satisfies, hstatus,
        ChannelSelector.withSource, ChannelSelector.withAllowedStates,
        ChannelSelector.withClosureTimeRange, ChannelStatus.discriminant]
      constructor
      · rintro ⟨rfl, hfirst, hlast⟩
        exact ⟨rfl, hlast, by omega⟩
      · rintro ⟨rfl, hlast, hfirst⟩
        exact ⟨rfl, by omega, hlast⟩

/-- How often a tick tried to close the channel of an id. -/
def Tick.attemptsOn (tick : Tick Id Address) (id : Id) : ℕ :=
  (tick.attempts.map (·.1.id)).count id

/-- A tick tried due channels only, each of them once, and its summary counts
what became of them. -/
structure Tick.Sound (me : Address) (cfg : ClosureFinalizerStrategyConfig)
    (tick : Tick Id Address) : Prop where
  selected : ∀ attempt ∈ tick.attempts,
    (dueChannels me cfg tick.began).satisfies attempt.1 = true
  distinct : (tick.attempts.map (·.1.id)).Nodup
  unopened : tick.summary = none → tick.attempts = []
  counted : ∀ summary, tick.summary = some summary →
    summary.due = tick.attempts.length ∧
      summary.submitted = tick.attempts.countP (·.2) ∧
      summary.failed = tick.attempts.countP (! ·.2)

/-- A tick which got its stream tried the channel once where it was due, and
not at all where it was not. -/
def Tick.Tries (me : Address) (cfg : ClosureFinalizerStrategyConfig)
    (channel : ChannelEntry Id Address) (tick : Tick Id Address) : Prop :=
  tick.attemptsOn channel.id =
    if tick.summary.isSome ∧
      (dueChannels me cfg tick.began).satisfies channel = true then 1 else 0

/-- The books of a tick under way which has taken up `tried`. -/
structure TickPass.Books (me : Address) (cfg : ClosureFinalizerStrategyConfig)
    (pass : TickPass Id Address) (tried : List (ChannelEntry Id Address)) :
    Prop where
  selector : pass.stream.selector = dueChannels me cfg pass.began
  selected : ∀ channel ∈ tried, pass.stream.selector.satisfies channel = true
  seen : ∀ channel ∈ tried, channel ∈ pass.stream.seen
  yielded : pass.stream.yielded = tried.map (·.id)
  distinct : pass.stream.yielded.Nodup
  due : pass.summary.due = tried.length
  submitted : pass.summary.submitted = pass.attempts.countP (·.2)
  failed : pass.summary.failed = pass.attempts.countP (! ·.2)

/-- The channel has been on the chain as it is since the tick began. -/
structure TickPass.Holds (channel : ChannelEntry Id Address)
    (pass : TickPass Id Address) : Prop where
  unchanged : channel ∈ pass.stream.unchanged
  own : ∀ other ∈ pass.stream.seen, other.id = channel.id → other = channel

namespace TickPass

variable {me : Address} {cfg : ClosureFinalizerStrategyConfig}
  {pass : TickPass Id Address} {tried : List (ChannelEntry Id Address)}
  {channel : ChannelEntry Id Address}

theorem Books.observe (hbooks : pass.Books me cfg tried)
    (channels : List (ChannelEntry Id Address)) :
    (pass.observe channels).Books me cfg tried where
  selector := hbooks.selector
  selected := hbooks.selected
  seen other hother := List.mem_append_left channels (hbooks.seen other hother)
  yielded := hbooks.yielded
  distinct := hbooks.distinct
  due := hbooks.due
  submitted := hbooks.submitted
  failed := hbooks.failed

omit [DecidableEq Id] in
theorem Books.pulled (hbooks : pass.Books me cfg tried)
    (hgives : pass.stream.Gives (some channel)) :
    (pass.pulled channel).Books me cfg (tried ++ [channel]) where
  selector := hbooks.selector
  selected other hother := by
    rcases List.mem_append.mp hother with hold | hnew
    · exact hbooks.selected other hold
    · rw [List.mem_singleton.mp hnew]
      exact hgives.2.1
  seen other hother := by
    rcases List.mem_append.mp hother with hold | hnew
    · exact hbooks.seen other hold
    · rw [List.mem_singleton.mp hnew]
      exact hgives.1
  yielded := by
    simp [TickPass.pulled, ChannelStream.yield, hbooks.yielded]
  distinct := by
    have hdistinct := hbooks.distinct
    have hfresh := hgives.2.2
    simp only [TickPass.pulled, ChannelStream.yield]
    exact List.nodup_append.mpr ⟨hdistinct, List.nodup_singleton _,
      fun id hid other hother heq =>
        hfresh (List.mem_singleton.mp hother ▸ heq ▸ hid)⟩
  due := by simp [TickPass.pulled, hbooks.due]
  submitted := hbooks.submitted
  failed := hbooks.failed

omit [DecidableEq Id] in
theorem Books.replied (hbooks : pass.Books me cfg tried) (submitted : Bool) :
    (if submitted then pass.submitted channel
      else pass.failed channel).Books me cfg tried where
  selector := by cases submitted <;> exact hbooks.selector
  selected := by cases submitted <;> exact hbooks.selected
  seen := by cases submitted <;> exact hbooks.seen
  yielded := by cases submitted <;> exact hbooks.yielded
  distinct := by cases submitted <;> exact hbooks.distinct
  due := by cases submitted <;> exact hbooks.due
  submitted := by
    cases submitted <;>
      simp [TickPass.submitted, TickPass.failed, hbooks.submitted]
  failed := by
    cases submitted <;>
      simp [TickPass.submitted, TickPass.failed, hbooks.failed]

omit [DecidableEq Id] in
theorem Books.opened (state : FinalizerState Id Address) (timer : Option ℤ) :
    TickPass.Books me cfg ⟨state.now, timer,
      .opened (dueChannels me cfg state.now) state.channels, .default, []⟩
      [] := by
  constructor <;> simp [ChannelStream.opened, TickSummary.default]

omit [DecidableEq Id] in
/-- What is recorded of a tick whose stream has ended. -/
theorem Books.sound (hbooks : pass.Books me cfg (pass.attempts.map (·.1))) :
    pass.record.Sound me cfg where
  selected attempt hattempt := by
    have hselected := hbooks.selected attempt.1
      (List.mem_map_of_mem hattempt)
    rw [hbooks.selector] at hselected
    exact hselected
  distinct := by
    have hdistinct := hbooks.distinct
    rw [hbooks.yielded, List.map_map] at hdistinct
    exact hdistinct
  unopened hnone := by simp [TickPass.record] at hnone
  counted summary hsummary := by
    obtain rfl : pass.summary = summary := Option.some.inj hsummary
    exact ⟨by rw [hbooks.due, List.length_map]; rfl, hbooks.submitted,
      hbooks.failed⟩

theorem Books.tries (hbooks : pass.Books me cfg (pass.attempts.map (·.1)))
    (hholds : pass.Holds channel) (hends : pass.stream.Gives none) :
    pass.record.Tries me cfg channel := by
  have hids : pass.record.attempts.map (·.1.id) = pass.stream.yielded := by
    rw [hbooks.yielded, List.map_map]
    rfl
  unfold Tick.Tries Tick.attemptsOn
  rw [hids]
  by_cases hdue : (dueChannels me cfg pass.began).satisfies channel = true
  · have hyielded := hends channel hholds.unchanged (hbooks.selector ▸ hdue)
    rw [if_pos ⟨rfl, hdue⟩]
    exact List.count_eq_one_of_mem hbooks.distinct hyielded
  · -- a channel of this id is this channel, which does not satisfy the selector
    rw [if_neg fun hboth => hdue hboth.2, List.count_eq_zero, hbooks.yielded]
    intro hmem
    obtain ⟨other, hother, hid⟩ := List.mem_map.mp hmem
    have heq := hholds.own other (hbooks.seen other hother) hid
    exact hdue (hbooks.selector ▸ heq ▸ hbooks.selected other hother)

theorem Holds.observe (hholds : pass.Holds channel)
    {channels : List (ChannelEntry Id Address)} (hmem : channel ∈ channels)
    (hids : (channels.map (·.id)).Nodup) :
    (pass.observe channels).Holds channel where
  unchanged := List.mem_filter.mpr ⟨hholds.unchanged, by simpa using hmem⟩
  own other hother hid := by
    rcases List.mem_append.mp hother with hold | hnew
    · exact hholds.own other hold hid
    · exact List.inj_on_of_nodup_map hids hnew hmem hid

end TickPass

/-! ## Whole runs -/

section

variable {me : Address} {cfg : ClosureFinalizerStrategyConfig}
  {interval lag duration : ℕ}

/-- Where the clock may stand in a phase. -/
def FinalizerPhase.Timed (interval lag duration : ℕ) (now : ℤ) :
    FinalizerPhase Id Address → Prop
  | .starting launched => launched ≤ now ∧ now ≤ launched + lag
  | .waiting since timer => since ≤ now ∧ timer ≤ since + interval ∧
      now ≤ max since timer + lag
  | .pulling pass | .closing pass _ => pass.began ≤ now ∧
      now ≤ pass.began + duration ∧
      ∀ timer, pass.timer = some timer → timer ≤ pass.began + interval

/-- The books of the tick at hand. -/
def FinalizerPhase.Booked (me : Address)
    (cfg : ClosureFinalizerStrategyConfig) : FinalizerPhase Id Address → Prop
  | .starting _ | .waiting _ _ => True
  | .pulling pass => pass.Books me cfg (pass.attempts.map (·.1))
  | .closing pass taken =>
      pass.Books me cfg (pass.attempts.map (·.1) ++ [taken])

/-- The ticks so far are sound, and so are the books and the clock of the phase
at hand. -/
structure FinalizerState.Kept (me : Address)
    (cfg : ClosureFinalizerStrategyConfig) (interval lag duration : ℕ)
    (state : FinalizerState Id Address) : Prop where
  ids : (state.channels.map (·.id)).Nodup
  timed : state.phase.Timed interval lag duration state.now
  booked : state.phase.Booked me cfg
  sound : ∀ tick ∈ state.ticks, tick.Sound me cfg

omit [DecidableEq Id] [DecidableEq Address] in
theorem await_timed {state : FinalizerState Id Address} {timer : Option ℤ}
    (tick : Tick Id Address)
    (htimer : ∀ at', timer = some at' → at' ≤ state.now + interval) :
    (state.await interval timer tick).phase.Timed interval lag duration
      state.now := by
  have hle : timer.getD (state.now + interval) ≤ state.now + interval := by
    cases timer with
    | none => exact le_refl _
    | some at' => exact htimer at' rfl
  exact ⟨le_refl _, hle, by have := le_max_left state.now; omega⟩

omit [DecidableEq Id] [DecidableEq Address] in
@[simp] theorem beginTick_now {state : FinalizerState Id Address}
    (timer : Option ℤ) (opened : Bool) :
    (state.beginTick me cfg interval timer opened).now = state.now := by
  cases opened <;> rfl

omit [DecidableEq Id] [DecidableEq Address] in
@[simp] theorem beginTick_channels {state : FinalizerState Id Address}
    (timer : Option ℤ) (opened : Bool) :
    (state.beginTick me cfg interval timer opened).channels =
      state.channels := by
  cases opened <;> rfl

omit [DecidableEq Id] [DecidableEq Address] in
theorem beginTick_timed {state : FinalizerState Id Address}
    {timer : Option ℤ} (opened : Bool)
    (htimer : ∀ at', timer = some at' → at' ≤ state.now + interval) :
    (state.beginTick me cfg interval timer opened).phase.Timed interval lag
      duration state.now := by
  cases opened with
  | true => exact ⟨le_refl _, by simp, htimer⟩
  | false => exact await_timed _ htimer

omit [DecidableEq Id] in
/-- A tick which gets no stream tries nothing. -/
theorem unopened_sound (now : ℤ) :
    Tick.Sound me cfg (⟨now, [], none⟩ : Tick Id Address) := by
  constructor <;> simp

omit [DecidableEq Id] in
theorem FinalizerState.Kept.beginTick {state : FinalizerState Id Address}
    {timer : Option ℤ}
    (hkept : state.Kept me cfg interval lag duration) (opened : Bool)
    (htimer : ∀ at', timer = some at' → at' ≤ state.now + interval) :
    (state.beginTick me cfg interval timer opened).Kept me cfg interval lag
      duration := by
  refine ⟨by rw [beginTick_channels]; exact hkept.ids,
    by rw [beginTick_now]; exact beginTick_timed opened htimer, ?_, ?_⟩
  · cases opened with
    | true => exact .opened state timer
    | false => trivial
  · cases opened with
    | true => exact hkept.sound
    | false =>
        intro tick htick
        rcases List.mem_append.mp htick with hold | hnew
        · exact hkept.sound tick hold
        · rw [List.mem_singleton.mp hnew]
          exact unopened_sound _

theorem kept_step {state after : FinalizerState Id Address}
    {action : FinalizerAction Id Address}
    (hkept : state.Kept me cfg interval lag duration)
    (husual : Usual lag duration state action)
    (hnext : state.step me cfg interval action = some after) :
    after.Kept me cfg interval lag duration := by
  have htimed := hkept.timed
  have hbooked := hkept.booked
  obtain ⟨hserved, hprompt⟩ := husual
  cases action with
  | pass later =>
      simp only [FinalizerState.step] at hnext
      split at hnext
      case isFalse => cases hnext
      case isTrue hle =>
        cases hnext
        refine ⟨hkept.ids, ?_, hbooked, hkept.sound⟩
        unfold Prompt at hprompt
        unfold FinalizerPhase.Timed at htimed ⊢
        cases hphase : state.phase with
        | starting launched =>
            simp only [hphase] at hprompt htimed
            exact ⟨htimed.1.trans hle, hprompt⟩
        | waiting since timer =>
            simp only [hphase] at hprompt htimed
            exact ⟨htimed.1.trans hle, htimed.2.1, hprompt⟩
        | pulling pass | closing pass channel =>
            simp only [hphase] at hprompt htimed
            exact ⟨htimed.1.trans hle, hprompt, htimed.2.2⟩
  | change channels =>
      cases hnext
      refine ⟨hserved, ?_, ?_, hkept.sound⟩
      · cases hphase : state.phase with
        | starting launched | waiting since timer
        | pulling pass | closing pass channel =>
            rw [hphase] at htimed
            exact htimed
      · cases hphase : state.phase with
        | starting launched | waiting since timer => trivial
        | pulling pass | closing pass channel =>
            rw [hphase] at hbooked
            exact hbooked.observe channels
  | begin opened =>
      simp only [FinalizerState.step] at hnext
      split at hnext
      · cases hnext
        exact hkept.beginTick opened fun timer htimer => by cases htimer
      · split at hnext
        · cases hnext
          exact hkept.beginTick opened fun timer htimer =>
            (Option.some.inj htimer).ge
        · cases hnext
      · cases hnext
  | next channel =>
      simp only [FinalizerState.step] at hnext
      split at hnext
      · case h_1 pass channel hphase =>
          cases hnext
          simp only [Served, hphase] at hserved
          rw [hphase] at htimed hbooked
          exact ⟨hkept.ids, htimed, hbooked.pulled hserved, hkept.sound⟩
      · case h_2 pass hphase =>
          cases hnext
          rw [hphase] at htimed hbooked
          have hbegan : pass.began ≤ state.now := htimed.1
          have hafter : (state.await interval pass.timer
              pass.record).phase.Timed interval lag duration state.now :=
            await_timed pass.record fun timer htimer =>
              (htimed.2.2 timer htimer).trans (by omega)
          refine ⟨hkept.ids, hafter, trivial, ?_⟩
          intro tick htick
          rcases List.mem_append.mp htick with hold | hnew
          · exact hkept.sound tick hold
          · rw [List.mem_singleton.mp hnew]
            exact hbooked.sound
      · cases hnext
  | closed submitted =>
      simp only [FinalizerState.step] at hnext
      split at hnext
      · case h_1 pass taken hphase =>
          cases hnext
          rw [hphase] at htimed hbooked
          have hreplied : (if submitted then pass.submitted taken
              else pass.failed taken).Books me cfg
                (pass.attempts.map (·.1) ++ [taken]) :=
            hbooked.replied submitted
          refine ⟨hkept.ids, by cases submitted <;> exact htimed, ?_,
            hkept.sound⟩
          cases submitted <;>
            simpa [FinalizerPhase.Booked, TickPass.submitted, TickPass.failed]
              using hreplied
      · cases hnext

theorem kept_reachable {state : FinalizerState Id Address}
    (hreach : (closureFinalizer me cfg interval).ReachableWithin
      (Usual lag duration) state) :
    state.Kept me cfg interval lag duration := by
  refine hreach.invariant ?_ fun _ _ _ hkept husual hnext =>
    kept_step hkept husual hnext
  rintro start ⟨hids, hphase, hticks⟩
  exact ⟨hids, by rw [hphase]; exact ⟨le_refl _, by omega⟩,
    by rw [hphase]; trivial, by rw [hticks]; exact List.forall_mem_nil _⟩

/-! ## What a run between two waits tries -/

/-- How a tick or a wait goes on from the ticks begun before. -/
def FinalizerPhase.Follows (gap : ℤ) (duration : ℕ)
    (channel : ChannelEntry Id Address) (start : ℤ) (begun : List ℤ) :
    FinalizerPhase Id Address → Prop
  | .starting launched => Spaced gap (start :: begun) ∧
      launched ≤ begun.getLastD start
  | .waiting since _ => Spaced gap (start :: begun) ∧
      since ≤ begun.getLastD start + duration
  | .pulling pass | .closing pass _ =>
      Spaced gap (start :: (begun ++ [pass.began])) ∧ pass.Holds channel

/-- The ticks since `start`, during which the channel has stayed. -/
structure Watched (me : Address) (cfg : ClosureFinalizerStrategyConfig)
    (interval lag duration : ℕ) (channel : ChannelEntry Id Address)
    (start : FinalizerState Id Address) (recent : List (Tick Id Address))
    (state : FinalizerState Id Address) : Prop where
  kept : state.Kept me cfg interval lag duration
  present : channel ∈ state.channels
  ticks : state.ticks = start.ticks ++ recent
  tries : ∀ tick ∈ recent, tick.Tries me cfg channel
  follows : state.phase.Follows (interval + duration + lag) duration channel
    start.now (recent.map (·.began))

variable {channel : ChannelEntry Id Address}
  {start state after : FinalizerState Id Address}
  {recent : List (Tick Id Address)}

/-- Between ticks, the next tick or the present is not far from the last. -/
theorem Watched.near
    (hwatched : Watched me cfg interval lag duration channel start recent
      state)
    (hbetween : state.phase.Between) :
    Spaced (interval + duration + lag)
        (start.now :: recent.map (·.began)) ∧
      state.now ≤ (recent.map (·.began)).getLastD start.now +
        (interval + duration + lag) := by
  have htimed := hwatched.kept.timed
  have hfollows := hwatched.follows
  cases hphase : state.phase with
  | starting launched =>
      rw [hphase] at htimed hfollows
      obtain ⟨hspaced, hlast⟩ := hfollows
      exact ⟨hspaced, by have := htimed.2; omega⟩
  | waiting since timer =>
      rw [hphase] at htimed hfollows
      obtain ⟨hspaced, hlast⟩ := hfollows
      obtain ⟨_, htimer, hnow⟩ := htimed
      have hmax : max since timer ≤ since + interval :=
        max_le (by omega) htimer
      exact ⟨hspaced, by omega⟩
  | pulling pass | closing pass taken =>
      rw [hphase] at hbetween
      exact hbetween.elim

theorem Watched.init (hkept : start.Kept me cfg interval lag duration)
    (hstart : start.phase.Between) (hpresent : channel ∈ start.channels) :
    Watched me cfg interval lag duration channel start [] start := by
  refine ⟨hkept, hpresent, (List.append_nil _).symm, by simp, ?_⟩
  have htimed := hkept.timed
  cases hphase : start.phase with
  | starting launched =>
      rw [hphase] at htimed
      exact ⟨List.isChain_singleton _, htimed.1⟩
  | waiting since timer =>
      rw [hphase] at htimed
      exact ⟨List.isChain_singleton _, htimed.1.trans (by simp)⟩
  | pulling pass | closing pass taken =>
      rw [hphase] at hstart
      exact hstart.elim

theorem unopened_tries (now : ℤ) :
    Tick.Tries me cfg channel (⟨now, [], none⟩ : Tick Id Address) := by
  simp [Tick.Tries, Tick.attemptsOn]

theorem Watched.beginTick
    (hwatched : Watched me cfg interval lag duration channel start recent
      state)
    (hbetween : state.phase.Between) (timer : Option ℤ)
    (opened : Bool)
    (hkept : (state.beginTick me cfg interval timer opened).Kept me cfg
      interval lag duration) :
    ∃ recent', Watched me cfg interval lag duration channel start recent'
      (state.beginTick me cfg interval timer opened) := by
  obtain ⟨hspaced, hnow⟩ := hwatched.near hbetween
  have hconcat := hspaced.concat hnow
  cases opened with
  | true =>
      refine ⟨recent, hkept, hwatched.present, hwatched.ticks,
        hwatched.tries, hconcat, ?_, ?_⟩
      · exact hwatched.present
      · intro other hother hid
        exact List.inj_on_of_nodup_map hwatched.kept.ids hother
          hwatched.present hid
  | false =>
      refine ⟨recent ++ [⟨state.now, [], none⟩], hkept, hwatched.present,
        ?_, ?_, ?_, ?_⟩
      · simp [FinalizerState.beginTick, FinalizerState.await, hwatched.ticks]
      · intro tick htick
        rcases List.mem_append.mp htick with hold | hnew
        · exact hwatched.tries tick hold
        · rw [List.mem_singleton.mp hnew]
          exact unopened_tries _
      · rw [List.map_append]
        exact hconcat
      · simp

theorem Watched.recordTick
    (hwatched : Watched me cfg interval lag duration channel start recent
      state)
    {pass : TickPass Id Address} (hphase : state.phase = .pulling pass)
    (hends : pass.stream.Gives none)
    (hkept : (state.await interval pass.timer pass.record).Kept me cfg
      interval lag duration) :
    Watched me cfg interval lag duration channel start
      (recent ++ [pass.record])
      (state.await interval pass.timer pass.record) := by
  have htimed := hwatched.kept.timed
  have hbooks := hwatched.kept.booked
  have hfollows := hwatched.follows
  rw [hphase] at htimed hbooks hfollows
  obtain ⟨hspaced, hholds⟩ := hfollows
  refine ⟨hkept, hwatched.present, ?_, ?_, ?_, ?_⟩
  · simp [FinalizerState.await, hwatched.ticks]
  · intro tick htick
    rcases List.mem_append.mp htick with hold | hnew
    · exact hwatched.tries tick hold
    · rw [List.mem_singleton.mp hnew]
      exact hbooks.tries hholds hends
  · rw [List.map_append]
    exact hspaced
  · have hnow : state.now ≤ pass.began + duration := htimed.2.1
    simpa [TickPass.record] using hnow

/-- The ticks go on with the next step, as long as the channel stays. -/
theorem Watched.step {action : FinalizerAction Id Address}
    (hwatched : Watched me cfg interval lag duration channel start recent
      state)
    (husual : Usual lag duration state action)
    (hkeeps : action.Keeps channel)
    (hnext : state.step me cfg interval action = some after) :
    ∃ recent', Watched me cfg interval lag duration channel start recent'
      after := by
  have hkept := kept_step hwatched.kept husual hnext
  have hfollows := hwatched.follows
  have hserved := husual.1
  cases action with
  | pass later =>
      simp only [FinalizerState.step] at hnext
      split at hnext
      · cases hnext
        exact ⟨recent, hkept, hwatched.present, hwatched.ticks,
          hwatched.tries, hfollows⟩
      · cases hnext
  | change channels =>
      cases hnext
      refine ⟨recent, hkept, hkeeps, hwatched.ticks, hwatched.tries, ?_⟩
      cases hphase : state.phase with
      | starting launched | waiting since timer =>
          rw [hphase] at hfollows
          exact hfollows
      | pulling pass | closing pass taken =>
          rw [hphase] at hfollows
          exact ⟨hfollows.1, hfollows.2.observe hkeeps hserved⟩
  | begin opened =>
      simp only [FinalizerState.step] at hnext
      split at hnext
      · case h_1 launched hphase =>
          cases hnext
          exact hwatched.beginTick (by rw [hphase]; trivial) _ opened hkept
      · case h_2 since timer hphase =>
          split at hnext
          · cases hnext
            exact hwatched.beginTick (by rw [hphase]; trivial) _ opened hkept
          · cases hnext
      · cases hnext
  | next given =>
      simp only [FinalizerState.step] at hnext
      split at hnext
      · case h_1 pass taken hphase =>
          cases hnext
          rw [hphase] at hfollows
          obtain ⟨hspaced, hholds⟩ := hfollows
          exact ⟨recent, hkept, hwatched.present, hwatched.ticks,
            hwatched.tries, hspaced, hholds.unchanged, hholds.own⟩
      · case h_2 pass hphase =>
          cases hnext
          simp only [Served, hphase] at hserved
          exact ⟨_, hwatched.recordTick hphase hserved hkept⟩
      · cases hnext
  | closed submitted =>
      simp only [FinalizerState.step] at hnext
      split at hnext
      · case h_1 pass taken hphase =>
          cases hnext
          rw [hphase] at hfollows
          obtain ⟨hspaced, hholds⟩ := hfollows
          refine ⟨recent, hkept, hwatched.present, hwatched.ticks,
            hwatched.tries, ?_⟩
          cases submitted <;>
            exact ⟨hspaced, hholds.unchanged, hholds.own⟩
      · cases hnext

/-- How often some ticks tried to close the channel of an id. -/
def attemptsOn (ticks : List (Tick Id Address)) (id : Id) : ℕ :=
  (ticks.map (·.attemptsOn id)).sum

/-- The ticks which got no stream. -/
def unopened (ticks : List (Tick Id Address)) : ℕ :=
  ticks.countP (·.summary.isNone)

theorem tries_iff_window {tick : Tick Id Address} {closureTime : ℤ}
    (hmine : channel.source = me)
    (hpending : channel.status = .pendingToClose closureTime)
    (htries : tick.Tries me cfg channel) :
    tick.attemptsOn channel.id =
      if tick.summary.isSome ∧ closureTime ≤ tick.began ∧
        tick.began ≤ closureTime + cfg.maxClosureOverdue then 1 else 0 := by
  have hdue : (dueChannels me cfg tick.began).satisfies channel = true ↔
      closureTime ≤ tick.began ∧
        tick.began ≤ closureTime + cfg.maxClosureOverdue := by
    rw [satisfies_dueChannels]
    constructor
    · rintro ⟨_, _, hstatus, hbounds⟩
      cases hpending.symm.trans hstatus
      exact hbounds
    · intro hbounds
      exact ⟨hmine, closureTime, hpending, hbounds⟩
  rw [htries]
  simp only [hdue]

/-- The ticks of the window have tried it, or got no stream. -/
theorem pointsWithin_le_attempts {closureTime : ℤ}
    (hmine : channel.source = me)
    (hpending : channel.status = .pendingToClose closureTime)
    (ticks : List (Tick Id Address))
    (htries : ∀ tick ∈ ticks, tick.Tries me cfg channel) :
    pointsWithin closureTime (closureTime + cfg.maxClosureOverdue)
        (ticks.map (·.began)) ≤
      attemptsOn ticks channel.id + unopened ticks := by
  induction ticks with
  | nil => simp [pointsWithin]
  | cons tick rest ih =>
      have hrest := ih fun other hother =>
        htries other (List.mem_cons_of_mem tick hother)
      have htick := tries_iff_window hmine hpending
        (htries tick List.mem_cons_self)
      rw [List.map_cons, pointsWithin_cons]
      simp only [attemptsOn, unopened, List.map_cons, List.sum_cons,
        List.countP_cons] at hrest ⊢
      cases hsummary : tick.summary with
      | none =>
          simp only [Option.isNone_none, if_true]
          split <;> omega
      | some summary =>
          rw [hsummary] at htick
          simp only [Option.isSome_some, true_and] at htick
          rw [htick]
          split <;> simp <;> omega

end

/-- Every tick tries due channels only, each of them once, and counts what
became of them.  While a channel of the node stays pending, every tick of its
window tries to close it once, and no other tick does.  By the end of the
window it has been tried as often as an interval, a tick and a delay fit into
what was left of the window, but for the ticks which got no stream. -/
theorem attemptedWhileDue {me : Address}
    {cfg : ClosureFinalizerStrategyConfig} {interval lag duration : ℕ}
    {start : FinalizerState Id Address}
    (hreach : (closureFinalizer me cfg interval).ReachableWithin
      (Usual lag duration) start) :
    (∀ tick ∈ start.ticks, tick.Sound me cfg) ∧
      ∀ (channel : ChannelEntry Id Address) (closureTime : ℤ)
        (actions : List (FinalizerAction Id Address))
        (after : FinalizerState Id Address),
        start.phase.Between → channel.source = me →
        channel.status = .pendingToClose closureTime →
        channel ∈ start.channels →
        (closureFinalizer me cfg interval).Throughout
          (fun before action _ =>
            Usual lag duration before action ∧ action.Keeps channel)
          start actions →
        (closureFinalizer me cfg interval).run start actions = some after →
        after.phase.Between →
        ∃ recent, after.ticks = start.ticks ++ recent ∧
          (∀ tick ∈ recent, tick.Sound me cfg ∧
            tick.attemptsOn channel.id =
              if tick.summary.isSome ∧ closureTime ≤ tick.began ∧
                tick.began ≤ closureTime + cfg.maxClosureOverdue
              then 1 else 0) ∧
          (closureTime + cfg.maxClosureOverdue < after.now →
            (closureTime + cfg.maxClosureOverdue - max closureTime start.now) /
                (interval + duration + lag) ≤
              attemptsOn recent channel.id + unopened recent) := by
  refine ⟨(kept_reachable hreach).sound, ?_⟩
  intro channel closureTime actions after hstart hmine hpending hpresent
    hallowed hrun hafter
  have hinit : Watched me cfg interval lag duration channel start [] start :=
    .init (kept_reachable hreach) hstart hpresent
  have hstep : ∀ before action next,
      (∃ recent, Watched me cfg interval lag duration channel start recent
        before) →
      Usual lag duration before action ∧ action.Keeps channel →
      (closureFinalizer me cfg interval).next before action = some next →
      ∃ recent, Watched me cfg interval lag duration channel start recent
        next := by
    rintro before action next ⟨recent, hbefore⟩ ⟨husual, hkeeps⟩ hnext
    exact hbefore.step husual hkeeps hnext
  obtain ⟨recent, hwatched⟩ := hallowed.invariant hstep ⟨[], hinit⟩ hrun
  have hsound : ∀ tick ∈ recent, tick.Sound me cfg := by
    intro tick htick
    apply hwatched.kept.sound
    rw [hwatched.ticks]
    exact List.mem_append_right _ htick
  refine ⟨recent, hwatched.ticks, fun tick htick => ⟨hsound tick htick,
    tries_iff_window hmine hpending (hwatched.tries tick htick)⟩, ?_⟩
  intro hlate
  obtain ⟨hspaced, hnow⟩ := hwatched.near hafter
  have hattempts := pointsWithin_le_attempts hmine hpending recent
    hwatched.tries
  by_cases hgap : (0 : ℤ) < interval + duration + lag
  · have hfit := (hspaced.ediv_le_pointsWithin hgap
      (le_max_right closureTime start.now) (hlate.trans_le hnow)).trans
        (Int.ofNat_le.mpr (pointsWithin_mono (le_max_left closureTime _)))
    exact hfit.trans (by exact_mod_cast hattempts)
  · -- without a gap the quotient is none
    have hzero : (interval + duration + lag : ℤ) = 0 := by omega
    rw [hzero, Int.ediv_zero]
    exact_mod_cast Nat.zero_le _

/-! ## Three tries -/

def overdueByTwenty : ClosureFinalizerStrategyConfig := ⟨20⟩

def dueAtTen : ChannelEntry ℕ ℕ := ⟨1, 0, 2, .pendingToClose 10⟩

def launched : FinalizerState ℕ ℕ := ⟨0, [dueAtTen], .starting 0, []⟩

/-- A tick which finds the channel due. -/
def dueTick (now : ℤ) (submitted : Bool) : List (FinalizerAction ℕ ℕ) :=
  [.pass now, .begin true, .next (some dueAtTen), .closed submitted,
    .next none]

def threeTries : List (FinalizerAction ℕ ℕ) :=
  [.begin true, .next none] ++ dueTick 10 false ++ dueTick 20 true ++
    dueTick 30 true ++ [.pass 40, .begin false, .pass 50]

theorem launched_reachable : (closureFinalizer 0 overdueByTwenty
    10).ReachableWithin (Usual 1 2) launched :=
  .init ⟨by decide, rfl, rfl⟩

theorem threeTries_usual : (closureFinalizer 0 overdueByTwenty 10).Throughout
    (fun before action _ => Usual 1 2 before action ∧ action.Keeps dueAtTen)
    launched threeTries := by
  decide

/-- With a millisecond of delay and two for a tick, the twenty milliseconds of
the window promise one try, and this run makes three. -/
theorem attemptedWhileDue_threeTries :
    ∃ after, (closureFinalizer 0 overdueByTwenty 10).run launched threeTries =
        some after ∧ attemptsOn after.ticks 1 = 3 ∧
      (30 - 10 : ℤ) / (10 + 2 + 1) ≤
        attemptsOn after.ticks 1 + unopened after.ticks := by
  have hrun : (closureFinalizer 0 overdueByTwenty 10).run launched
      threeTries = some _ := rfl
  obtain ⟨recent, hticks, _, hattempts⟩ :=
    (attemptedWhileDue launched_reachable).2 dueAtTen 10 threeTries _ trivial
      rfl rfl List.mem_cons_self threeTries_usual hrun trivial
  obtain rfl : _ = recent := hticks
  exact ⟨_, hrun, rfl, hattempts (by decide)⟩

end HoprStrategy.ClosureFinalizer
