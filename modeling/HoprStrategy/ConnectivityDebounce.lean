import HoprStrategy.TickPhases
import Mathlib.Data.List.DropRight
import Mathlib.Tactic

/-!
# The debounce of connectivity closes

A channel whose peer is not connected is closed without the selector's asking,
but only once enough close passes in a row have found the peer disconnected.
The streaks live across the ticks: a close pass which is evaluated drops those
of destinations without an open channel, advances those of disconnected peers
and removes all the others.

A tick which returns early or is still in its startup guard evaluates no close
pass and touches no streak.
-/

namespace HoprStrategy.ChannelLifecycle

open Library

/-- How a close pass finds a destination. -/
inductive Observation where
  /-- No open channel leads to it. -/
  | absent
  | unresolvable
  | connected
  | disconnected
  deriving DecidableEq

structure DebounceConfig extends ChannelLifecycleConfig where
  closeAfterDisconnectedTicks : UInt64

def DebounceConfig.debounce (cfg : DebounceConfig) : UInt64 :=
  max cfg.closeAfterDisconnectedTicks 1

section

variable (Id Addr Peer : Type)

/-- The peer map, when it could be read, and the network view. -/
structure NetworkReading where
  peerAddrMap : Option (Addr → Option Peer)
  isConnected : Peer → Bool

/-- The strategy with its streaks.  `passes` are the close passes evaluated so
far, with what each found. -/
structure DebounceState where
  lifecycle : LifecycleState Id Addr
  reading : NetworkReading Addr Peer
  disconnectStreak : Addr → Option UInt64
  passes : List (Addr → Observation)

inductive DebounceAction where
  | tick (inputs : TickInputs Id Addr) (reading : NetworkReading Addr Peer)
  /-- Any other action of the strategy. -/
  | other (action : LifecycleAction Id Addr)

end

variable {Id Addr Peer : Type} [DecidableEq Id] [DecidableEq Addr]

namespace NetworkReading

def addrToPeerId (reading : NetworkReading Addr Peer) (dest : Addr) :
    Option Peer :=
  reading.peerAddrMap.bind (· dest)

/-- An unresolvable peer counts as connected. -/
def disconnectedNow (reading : NetworkReading Addr Peer) (dest : Addr) : Bool :=
  (reading.addrToPeerId dest).any (! reading.isConnected ·)

def observe (reading : NetworkReading Addr Peer)
    (openChannels : List (ChannelEntry Id Addr)) (dest : Addr) : Observation :=
  if dest ∈ openChannels.map (·.destination) then
    match reading.addrToPeerId dest with
    | none => .unresolvable
    | some peer =>
        if reading.isConnected peer then .connected else .disconnected
  else .absent

/-- The filter of the pass over the open channels: advances or removes the
streak, and selects the channel once its streak has lasted. -/
def observeChannel (debounce : UInt64) (reading : NetworkReading Addr Peer)
    (found : (Addr → Option UInt64) × List Id)
    (channel : ChannelEntry Id Addr) : (Addr → Option UInt64) × List Id :=
  if reading.disconnectedNow channel.destination then
    let streak := (found.1 channel.destination).getD 0 + 1
    (Function.update found.1 channel.destination (some streak),
      if debounce ≤ streak then found.2 ++ [channel.id] else found.2)
  else (Function.update found.1 channel.destination none, found.2)

def retainLive (streaks : Addr → Option UInt64)
    (openChannels : List (ChannelEntry Id Addr)) (dest : Addr) :
    Option UInt64 :=
  if dest ∈ openChannels.map (·.destination) then streaks dest else none

/-- The streaks after a pass, and the channels which it finds disconnected for
long enough. -/
def evaluate (debounce : UInt64) (reading : NetworkReading Addr Peer)
    (openChannels : List (ChannelEntry Id Addr))
    (streaks : Addr → Option UInt64) : (Addr → Option UInt64) × List Id :=
  openChannels.foldl (reading.observeChannel debounce)
    (retainLive streaks openChannels, [])

end NetworkReading

/-- The chain lists one entry for each channel, and one channel to each
destination. -/
structure TickInputs.Listed (tick : TickInputs Id Addr) : Prop where
  ids : (tick.channels.map (·.id)).Nodup
  destinations : (tick.channels.map (·.destination)).Nodup

instance (tick : TickInputs Id Addr) : Decidable tick.Listed :=
  decidable_of_iff
    ((tick.channels.map (·.id)).Nodup ∧
      (tick.channels.map (·.destination)).Nodup)
    ⟨fun h => ⟨h.1, h.2⟩, fun h => ⟨h.ids, h.destinations⟩⟩

def TaskPhase.isClosing : TaskPhase Id Addr → Bool
  | .closing _ _ _ => true
  | _ => false

namespace DebounceState

/-- What the tick at hand finds, were its close pass evaluated now. -/
def evaluation (cfg : DebounceConfig) (state : DebounceState Id Addr Peer)
    (tick : TickInputs Id Addr) : (Addr → Option UInt64) × List Id :=
  state.reading.evaluate cfg.debounce tick.openChannels state.disconnectStreak

/-- The strategy moves on; its close pass is evaluated when it is come to. -/
def move (cfg : DebounceConfig) (state : DebounceState Id Addr Peer)
    (after : LifecycleState Id Addr) : DebounceState Id Addr Peer :=
  if after.phase.isClosing && ! state.lifecycle.phase.isClosing then
    { state with
      lifecycle := after
      disconnectStreak := (state.evaluation cfg after.tick).1
      passes := state.passes ++
        [state.reading.observe after.tick.openChannels] }
  else { state with lifecycle := after }

/-- The inputs of a tick name the channels which its close pass will find
disconnected for long enough, in the order of a hash set. -/
def next (cfg : DebounceConfig) (state : DebounceState Id Addr Peer) :
    DebounceAction Id Addr Peer → Option (DebounceState Id Addr Peer)
  | .tick inputs reading =>
      let read := { state with reading := reading }
      if inputs.Listed ∧ inputs.peerMapKnown = reading.peerAddrMap.isSome ∧
          inputs.disconnected.Perm (read.evaluation cfg inputs).2 then
        (state.lifecycle.next cfg.toChannelLifecycleConfig (.tick inputs)).map
          (read.move cfg)
      else none
  | .other (.tick _) => none
  | .other action =>
      (state.lifecycle.next cfg.toChannelLifecycleConfig action).map
        (state.move cfg)

end DebounceState

/-- The strategy starts without a streak. -/
def debouncedLifecycle (cfg : DebounceConfig) :
    TransitionSystem (DebounceState Id Addr Peer)
      (DebounceAction Id Addr Peer) where
  init state := state.lifecycle = LifecycleState.initial ∧
    state.disconnectStreak = (fun _ => none) ∧ state.passes = []
  next := DebounceState.next cfg

/-! ## One evaluation -/

namespace NetworkReading

variable {reading : NetworkReading Addr Peer}
  {openChannels : List (ChannelEntry Id Addr)}
  {streaks : Addr → Option UInt64} {debounce : UInt64} {dest : Addr} {id : Id}

omit [DecidableEq Id] in
theorem observe_eq_disconnected :
    reading.observe openChannels dest = .disconnected ↔
      dest ∈ openChannels.map (·.destination) ∧
        reading.disconnectedNow dest = true := by
  unfold observe disconnectedNow
  split
  · rename_i hlive
    cases reading.addrToPeerId dest with
    | none => simp
    | some peer =>
        cases hconnected : reading.isConnected peer with
        | false => simpa [hconnected] using hlive
        | true => simp [hconnected]
  · rename_i hlive
    simp [hlive]

omit [DecidableEq Id] in
/-- Each streak is touched at its own channel only. -/
theorem foldl_observeChannel_streak
    (hnodup : (openChannels.map (·.destination)).Nodup)
    (found : (Addr → Option UInt64) × List Id) :
    (openChannels.foldl (reading.observeChannel debounce) found).1 dest =
      if dest ∈ openChannels.map (·.destination) then
        if reading.disconnectedNow dest then
          some ((found.1 dest).getD 0 + 1)
        else none
      else found.1 dest := by
  induction openChannels generalizing found with
  | nil => simp
  | cons channel rest ih =>
      obtain ⟨hfresh, hrest⟩ := List.nodup_cons.mp hnodup
      rw [List.foldl_cons, ih hrest, List.map_cons]
      by_cases hdest : dest = channel.destination
      · subst hdest
        rw [if_neg hfresh, if_pos List.mem_cons_self]
        unfold observeChannel
        split
        · simp
        · simp
      · have hsame :
            (reading.observeChannel debounce found channel).1 dest =
              found.1 dest := by
          unfold observeChannel
          split
          · exact Function.update_of_ne hdest _ _
          · exact Function.update_of_ne hdest _ _
        rw [hsame]
        simp only [List.mem_cons, hdest, false_or]

omit [DecidableEq Id] in
theorem mem_foldl_observeChannel
    (hnodup : (openChannels.map (·.destination)).Nodup)
    (found : (Addr → Option UInt64) × List Id) :
    id ∈ (openChannels.foldl (reading.observeChannel debounce) found).2 ↔
      id ∈ found.2 ∨ ∃ channel ∈ openChannels, channel.id = id ∧
        reading.disconnectedNow channel.destination = true ∧
        debounce ≤ (found.1 channel.destination).getD 0 + 1 := by
  induction openChannels generalizing found with
  | nil => simp
  | cons channel rest ih =>
      obtain ⟨hfresh, hrest⟩ := List.nodup_cons.mp hnodup
      have hkept : ∀ other ∈ rest,
          (reading.observeChannel debounce found channel).1
            other.destination = found.1 other.destination := by
        intro other hmem
        have hne : other.destination ≠ channel.destination := by
          intro heq
          exact hfresh (List.mem_map.mpr ⟨other, hmem, heq⟩)
        unfold observeChannel
        split
        · exact Function.update_of_ne hne _ _
        · exact Function.update_of_ne hne _ _
      have hnew : id ∈ (reading.observeChannel debounce found channel).2 ↔
          id ∈ found.2 ∨ channel.id = id ∧
            reading.disconnectedNow channel.destination = true ∧
            debounce ≤ (found.1 channel.destination).getD 0 + 1 := by
        unfold observeChannel
        split
        · rename_i hdisconnected
          dsimp only
          split
          · rename_i hlasted
            simp [hdisconnected, hlasted, eq_comm]
          · rename_i hlasted
            simp [hlasted]
        · rename_i hdisconnected
          simp [hdisconnected]
      rw [List.foldl_cons, ih hrest, hnew, or_assoc]
      refine or_congr Iff.rfl ?_
      simp only [List.exists_mem_cons_iff]
      refine or_congr Iff.rfl ⟨?_, ?_⟩
      · rintro ⟨other, hmem, hid, hdisconnected, hlasted⟩
        rw [hkept other hmem] at hlasted
        exact ⟨other, hmem, hid, hdisconnected, hlasted⟩
      · rintro ⟨other, hmem, hid, hdisconnected, hlasted⟩
        rw [← hkept other hmem] at hlasted
        exact ⟨other, hmem, hid, hdisconnected, hlasted⟩

omit [DecidableEq Id] in
/-- A pass advances the streaks of the destinations which it finds
disconnected and leaves no other. -/
theorem evaluate_streak
    (hnodup : (openChannels.map (·.destination)).Nodup) :
    (reading.evaluate debounce openChannels streaks).1 dest =
      if reading.observe openChannels dest = .disconnected then
        some ((streaks dest).getD 0 + 1)
      else none := by
  unfold evaluate
  rw [foldl_observeChannel_streak hnodup]
  simp only [observe_eq_disconnected]
  by_cases hlive : dest ∈ openChannels.map (·.destination)
  · simp [hlive, retainLive]
  · simp [hlive, retainLive]

omit [DecidableEq Id] in
theorem mem_evaluate (hnodup : (openChannels.map (·.destination)).Nodup) :
    id ∈ (reading.evaluate debounce openChannels streaks).2 ↔
      ∃ channel ∈ openChannels, channel.id = id ∧
        reading.disconnectedNow channel.destination = true ∧
        debounce ≤ (streaks channel.destination).getD 0 + 1 := by
  have hlive : ∀ channel ∈ openChannels,
      retainLive streaks openChannels channel.destination =
        streaks channel.destination := by
    intro channel hmem
    exact if_pos (List.mem_map_of_mem hmem)
  unfold evaluate
  rw [mem_foldl_observeChannel hnodup]
  simp only [List.not_mem_nil, false_or]
  constructor
  · rintro ⟨channel, hmem, hid, hdisconnected, hlasted⟩
    rw [hlive channel hmem] at hlasted
    exact ⟨channel, hmem, hid, hdisconnected, hlasted⟩
  · rintro ⟨channel, hmem, hid, hdisconnected, hlasted⟩
    rw [← hlive channel hmem] at hlasted
    exact ⟨channel, hmem, hid, hdisconnected, hlasted⟩

end NetworkReading

/-! ## The run of a destination -/

/-- How many of the last passes in a row found the destination
disconnected. -/
def disconnectedRun (passes : List (Addr → Observation)) (dest : Addr) : ℕ :=
  (passes.rtakeWhile fun pass => pass dest = .disconnected).length

/-- The streak which stands for a run. -/
def streakOf (run : ℕ) : Option UInt64 :=
  if run = 0 then none else some (UInt64.ofNat run)

omit [DecidableEq Addr] in
theorem disconnectedRun_concat (passes : List (Addr → Observation))
    (pass : Addr → Observation) (dest : Addr) :
    disconnectedRun (passes ++ [pass]) dest =
      if pass dest = .disconnected then disconnectedRun passes dest + 1
      else 0 := by
  unfold disconnectedRun
  rw [List.rtakeWhile_concat]
  by_cases hdisconnected : pass dest = .disconnected
  · simp [hdisconnected]
  · simp [hdisconnected]

theorem streakOf_getD_add_one (run : ℕ) :
    (streakOf run).getD 0 + 1 = UInt64.ofNat (run + 1) := by
  unfold streakOf
  split
  · rename_i hzero
    subst hzero
    rfl
  · rw [Option.getD_some, UInt64.ofNat_add]
    rfl

/-- A counter which has wrapped around is below its run. -/
theorem toNat_le_of_le_ofNat {bound : UInt64} {run : ℕ}
    (hle : bound ≤ UInt64.ofNat run) : bound.toNat ≤ run := by
  rw [UInt64.le_iff_toNat_le, UInt64.toNat_ofNat'] at hle
  exact hle.trans (Nat.mod_le _ _)

/-! ## The streaks over a run -/

namespace TickInputs

variable {tick : TickInputs Id Addr}

omit [DecidableEq Id] [DecidableEq Addr] in
theorem Listed.openDestinations (hlisted : tick.Listed) :
    (tick.openChannels.map (·.destination)).Nodup :=
  hlisted.destinations.sublist (List.filter_sublist.map _)

omit [DecidableEq Addr] in
/-- The index by id holds the open channel which has the id. -/
theorem Listed.channelById (hlisted : tick.Listed)
    {channel : ChannelEntry Id Addr} (hopen : channel ∈ tick.openChannels) :
    tick.channelById channel.id = some channel := by
  have hids : (tick.openChannels.map (·.id)).Nodup :=
    hlisted.ids.sublist (List.filter_sublist.map _)
  cases hfound : tick.channelById channel.id with
  | none =>
      have hnone := List.find?_eq_none.mp hfound channel
        (List.mem_reverse.mpr hopen)
      simp at hnone
  | some found =>
      have hmem : found ∈ tick.openChannels :=
        List.mem_reverse.mp (List.mem_of_find?_eq_some hfound)
      rw [List.inj_on_of_nodup_map hids hmem hopen
        (TickInputs.channelById_id hfound)]

end TickInputs

namespace DebounceState

variable {cfg : DebounceConfig} {state before after : DebounceState Id Addr Peer}

/-- The destination of the channel was found disconnected often enough. -/
def Overdue (cfg : DebounceConfig) (state : DebounceState Id Addr Peer)
    (id : Id) : Prop :=
  ∃ channel ∈ state.lifecycle.tick.openChannels, channel.id = id ∧
    cfg.debounce.toNat ≤ disconnectedRun state.passes channel.destination

def CountsRuns (state : DebounceState Id Addr Peer) : Prop :=
  ∀ dest, state.disconnectStreak dest =
    streakOf (disconnectedRun state.passes dest)

/-- Ahead of its close pass a tick knows what the pass will find, and in it
only channels which the selector ranked or which are overdue are left. -/
def Prepared (cfg : DebounceConfig) (state : DebounceState Id Addr Peer) :
    Prop :=
  match state.lifecycle.phase with
  | .funding _ _ => state.lifecycle.tick.Listed ∧
      state.lifecycle.tick.disconnected.Perm
        (state.evaluation cfg state.lifecycle.tick).2
  | .closing candidates _ _ => state.lifecycle.tick.Listed ∧
      (∀ id ∈ candidates, id ∈ state.lifecycle.tick.closesRanked ∨
        id ∈ state.lifecycle.tick.disconnected) ∧
      ∀ id ∈ state.lifecycle.tick.disconnected, state.Overdue cfg id
  | _ => True

structure Debounced (cfg : DebounceConfig)
    (state : DebounceState Id Addr Peer) : Prop where
  counts : state.CountsRuns
  prepared : state.Prepared cfg

omit [DecidableEq Id] in
theorem prepared_of_past (hpast : state.lifecycle.phase.IsPastClosing) :
    state.Prepared cfg := by
  unfold Prepared
  cases hphase : state.lifecycle.phase with
  | funding =>
      rw [hphase] at hpast
      exact hpast.elim
  | closing =>
      rw [hphase] at hpast
      exact hpast.elim
  | idle => trivial
  | consolidating => trivial
  | toppingUp => trivial
  | finalizing => trivial
  | opening => trivial
  | decreased => trivial
  | crashed => trivial

omit [DecidableEq Id] [DecidableEq Addr] in
theorem isClosing_of_past {phase : TaskPhase Id Addr}
    (hpast : phase.IsPastClosing) : phase.isClosing = false := by
  cases phase with
  | closing => exact hpast.elim
  | funding => exact hpast.elim
  | idle => rfl
  | consolidating => rfl
  | toppingUp => rfl
  | finalizing => rfl
  | opening => rfl
  | decreased => rfl
  | crashed => rfl

omit [DecidableEq Id] in
/-- A step which does not come to the close pass leaves the streaks. -/
theorem move_eq_of_stay {next : LifecycleState Id Addr}
    (hstay : next.phase.isClosing = true →
      state.lifecycle.phase.isClosing = true) :
    state.move cfg next = { state with lifecycle := next } := by
  unfold move
  rw [if_neg]
  simp only [Bool.and_eq_true, Bool.not_eq_true', not_and,
    Bool.not_eq_false]
  exact hstay

omit [DecidableEq Id] in
/-- The pass counts the runs which it makes longer or ends. -/
theorem CountsRuns.evaluate (hcounts : state.CountsRuns)
    {tick : TickInputs Id Addr} (hlisted : tick.Listed) (dest : Addr) :
    (state.evaluation cfg tick).1 dest = streakOf (disconnectedRun
      (state.passes ++ [state.reading.observe tick.openChannels]) dest) := by
  unfold evaluation
  rw [NetworkReading.evaluate_streak hlisted.openDestinations,
    disconnectedRun_concat]
  split
  · rw [hcounts dest, streakOf_getD_add_one]
    exact (if_neg (Nat.succ_ne_zero _)).symm
  · rfl

/-- A tick which moves on towards its close pass, or into it. -/
theorem Debounced.comes {next : LifecycleState Id Addr}
    (hcounts : state.CountsRuns)
    (hbefore : state.lifecycle.phase.isClosing = false)
    (hlisted : next.tick.Listed)
    (hfound : next.tick.disconnected.Perm (state.evaluation cfg next.tick).2)
    (hcomes : (∃ stranded candidates,
        next.phase = .funding stranded candidates) ∨
      next.ComesToClosing next.phase) :
    (state.move cfg next).Debounced cfg := by
  rcases hcomes with ⟨stranded, candidates, hphase⟩ |
    ⟨closeCount, hphase⟩ | hpast
  · have hmove : state.move cfg next = { state with lifecycle := next } :=
      move_eq_of_stay fun hclosing => by
        rw [hphase] at hclosing
        cases hclosing
    rw [hmove]
    refine ⟨hcounts, ?_⟩
    unfold Prepared
    dsimp only
    rw [hphase]
    exact ⟨hlisted, hfound⟩
  · have hmove : state.move cfg next = { state with
        lifecycle := next
        disconnectStreak := (state.evaluation cfg next.tick).1
        passes := state.passes ++
          [state.reading.observe next.tick.openChannels] } := by
      unfold move
      rw [hphase, hbefore]
      rfl
    rw [hmove]
    refine ⟨hcounts.evaluate hlisted, ?_⟩
    unfold Prepared
    dsimp only
    rw [hphase]
    refine ⟨hlisted, ?_, ?_⟩
    · intro id hmem
      rcases List.mem_append.mp hmem with hranked | hdisconnected
      · exact Or.inl hranked
      · exact Or.inr (List.mem_filter.mp hdisconnected).1
    · intro id hmem
      obtain ⟨channel, hopen, hid, hdisconnected, hlasted⟩ :=
        (NetworkReading.mem_evaluate hlisted.openDestinations).mp
          (hfound.mem_iff.mp hmem)
      refine ⟨channel, hopen, hid, ?_⟩
      rw [hcounts channel.destination, streakOf_getD_add_one] at hlasted
      rw [disconnectedRun_concat, if_pos]
      · exact toNat_le_of_le_ofNat hlasted
      · exact NetworkReading.observe_eq_disconnected.mpr
          ⟨List.mem_map_of_mem hopen, hdisconnected⟩
  · have hmove : state.move cfg next = { state with lifecycle := next } :=
      move_eq_of_stay fun hclosing => by
        rw [isClosing_of_past hpast] at hclosing
        cases hclosing
    rw [hmove]
    exact ⟨hcounts, prepared_of_past hpast⟩

omit [DecidableEq Id] in
theorem Debounced.past (hdebounced : state.Debounced cfg)
    {next : LifecycleState Id Addr} (hpast : next.phase.IsPastClosing) :
    (state.move cfg next).Debounced cfg := by
  have hmove : state.move cfg next = { state with lifecycle := next } :=
    move_eq_of_stay fun hclosing => by
      rw [isClosing_of_past hpast] at hclosing
      cases hclosing
  rw [hmove]
  exact ⟨hdebounced.counts, prepared_of_past hpast⟩

omit [DecidableEq Id] in
/-- What happens beside the task leaves its phase and its tick. -/
theorem Debounced.beside (hdebounced : state.Debounced cfg)
    {next : LifecycleState Id Addr}
    (hphase : next.phase = state.lifecycle.phase)
    (htick : next.tick = state.lifecycle.tick) :
    (state.move cfg next).Debounced cfg := by
  have hmove : state.move cfg next = { state with lifecycle := next } :=
    move_eq_of_stay fun hclosing => hphase ▸ hclosing
  have hprepared := hdebounced.prepared
  rw [hmove]
  refine ⟨hdebounced.counts, ?_⟩
  unfold Prepared Overdue at hprepared ⊢
  dsimp only
  rw [hphase, htick]
  exact hprepared

omit [DecidableEq Id] in
theorem Debounced.close (hdebounced : state.Debounced cfg)
    {candidates : List Id} {closeCount dispatchedThisTick : ℕ}
    {next : LifecycleState Id Addr}
    (hphase : state.lifecycle.phase =
      .closing candidates closeCount dispatchedThisTick)
    (hstep : LifecycleState.CloseStep state.lifecycle next candidates) :
    (state.move cfg next).Debounced cfg := by
  have hprepared := hdebounced.prepared
  unfold Prepared at hprepared
  rw [hphase] at hprepared
  obtain ⟨hlisted, hcandidates, hoverdue⟩ := hprepared
  have hstays : state.move cfg next = { state with lifecycle := next } :=
    move_eq_of_stay fun _ => by
      rw [hphase]
      rfl
  have hrest : ∀ {id rest operations} (count dispatched : ℕ),
      candidates = id :: rest →
      next.phase = .closing rest count dispatched →
      LifecycleState.Sends state.lifecycle next operations →
      (state.move cfg next).Debounced cfg := by
    intro id rest operations count dispatched hcons hnext hsends
    rw [hstays]
    refine ⟨hdebounced.counts, ?_⟩
    unfold Prepared Overdue
    dsimp only
    rw [hnext, hsends.tick]
    refine ⟨hlisted, ?_, hoverdue⟩
    intro other hmem
    exact hcandidates other (hcons ▸ List.mem_cons_of_mem id hmem)
  cases hstep with
  | ended hpast => exact hdebounced.past hpast
  | skipped count dispatched hnext hsends =>
      exact hrest count dispatched rfl hnext hsends
  | closed count dispatched hnext hsends =>
      exact hrest count dispatched rfl hnext hsends

theorem Debounced.work (hdebounced : state.Debounced cfg)
    {reread : Option (Option (ChannelEntry Id Addr))}
    {next : LifecycleState Id Addr}
    (hwork : state.lifecycle.work cfg.toChannelLifecycleConfig reread =
      some next) :
    (state.move cfg next).Debounced cfg := by
  have htick := (LifecycleState.work_workStep reread hwork).sameTick.tick
  have hprepared := hdebounced.prepared
  rcases state.lifecycle.phase.trichotomy with
    ⟨stranded, candidates, hphase⟩ |
    ⟨candidates, closeCount, dispatchedThisTick, hphase⟩ | hpast
  · unfold Prepared at hprepared
    rw [hphase] at hprepared
    have hnext : state.lifecycle.fundStep cfg.toChannelLifecycleConfig
        stranded candidates = next := by
      simpa [LifecycleState.work, hphase] using hwork
    have hcomes := @LifecycleState.fundStep_comes _ _ _
      cfg.toChannelLifecycleConfig state.lifecycle stranded candidates
    rw [hnext] at hcomes
    refine Debounced.comes hdebounced.counts (by rw [hphase]; rfl)
      (htick ▸ hprepared.1) (htick ▸ hprepared.2) ?_
    rcases hcomes with ⟨rest, hfunding⟩ | hcloses
    · exact Or.inl ⟨stranded, rest, hfunding⟩
    · refine Or.inr ?_
      unfold LifecycleState.ComesToClosing
        LifecycleState.closeCandidates at hcloses ⊢
      rw [htick]
      exact hcloses
  · exact hdebounced.close hphase (LifecycleState.work_closeStep hphase hwork)
  · exact hdebounced.past (LifecycleState.work_past reread hpast hwork)

theorem other_afterStart {action : LifecycleAction Id Addr}
    (hnext : before.next cfg (.other action) = some after) :
    ∃ moved, LifecycleState.AfterStart cfg.toChannelLifecycleConfig
      before.lifecycle moved ∧ before.move cfg moved = after := by
  have hstarted : ∀ inputs, action ≠ .tick inputs := by
    rintro inputs rfl
    cases hnext
  have hother : before.next cfg (.other action) =
      (before.lifecycle.next cfg.toChannelLifecycleConfig action).map
        (before.move cfg) := by
    cases action with
    | tick inputs => exact absurd rfl (hstarted inputs)
    | work => rfl
    | pass => rfl
    | report => rfl
    | balanceDecreased => rfl
    | budget => rfl
    | balanceIncreased => rfl
    | channelOpened => rfl
    | closureInitiated => rfl
    | channelClosed => rfl
  rw [hother] at hnext
  obtain ⟨moved, hmoved, heq⟩ := Option.map_eq_some_iff.mp hnext
  exact ⟨moved, LifecycleState.next_afterStart hstarted hmoved, heq⟩

theorem Debounced.tick (hdebounced : state.Debounced cfg)
    {inputs : TickInputs Id Addr} {reading : NetworkReading Addr Peer}
    (hnext : state.next cfg (.tick inputs reading) = some after) :
    after.Debounced cfg := by
  simp only [next] at hnext
  split at hnext
  · rename_i hinputs
    obtain ⟨hlisted, _, hfound⟩ := hinputs
    obtain ⟨started, htick, hmove⟩ := Option.map_eq_some_iff.mp hnext
    subst hmove
    simp only [LifecycleState.next] at htick
    split at htick
    · rename_i hidle
      rw [Option.some.injEq] at htick
      have hcomes := @LifecycleState.startFunding_comes _ _ _
        cfg.toChannelLifecycleConfig (state.lifecycle.snapshot inputs)
      have hsame : started.tick = inputs := by
        rw [← htick]
        exact LifecycleState.startFunding_sameTick.tick
      refine Debounced.comes hdebounced.counts (by rw [hidle]; rfl)
        (hsame ▸ hlisted) (hsame ▸ hfound) ?_
      rcases hcomes with hfunding | hcloses
      · exact Or.inl (htick ▸ hfunding)
      · refine Or.inr ?_
        unfold LifecycleState.ComesToClosing
          LifecycleState.closeCandidates at hcloses ⊢
        rw [hsame]
        exact htick ▸ hcloses
    · cases htick
  · cases hnext

theorem next_debounced {action : DebounceAction Id Addr Peer}
    (hdebounced : before.Debounced cfg)
    (hnext : before.next cfg action = some after) : after.Debounced cfg := by
  cases action with
  | tick inputs reading => exact hdebounced.tick hnext
  | other action =>
      obtain ⟨moved, hstarted, rfl⟩ := other_afterStart hnext
      cases hstarted with
      | worked reread hwork => exact hdebounced.work hwork
      | stayed hphase htick => exact hdebounced.beside hphase htick
      | outside _ hafter => exact hdebounced.past hafter

omit [DecidableEq Id] in
@[simp] theorem move_lifecycle (next : LifecycleState Id Addr) :
    (state.move cfg next).lifecycle = next := by
  unfold move
  split
  · rfl
  · rfl

/-- In the close pass nothing but its own step dispatches. -/
theorem dispatched_of_closing {action : DebounceAction Id Addr Peer}
    {candidates : List Id} {closeCount dispatchedThisTick : ℕ}
    (hphase : before.lifecycle.phase =
      .closing candidates closeCount dispatchedThisTick)
    (hnext : before.next cfg action = some after) :
    after.lifecycle.dispatched = before.lifecycle.dispatched ∨
      LifecycleState.CloseStep before.lifecycle after.lifecycle
        candidates := by
  cases action with
  | tick inputs reading =>
      simp only [next] at hnext
      split at hnext
      · simp [LifecycleState.next, hphase] at hnext
      · cases hnext
  | other action =>
      obtain ⟨moved, hstarted, rfl⟩ := other_afterStart hnext
      rw [move_lifecycle]
      cases hstarted with
      | worked reread hwork =>
          exact Or.inr (LifecycleState.work_closeStep hphase hwork)
      | stayed _ _ hdispatched => exact Or.inl hdispatched
      | outside _ _ _ hdispatched => exact Or.inl hdispatched

theorem debounced_of_reachable
    (hreach : (debouncedLifecycle cfg).Reachable state) :
    state.Debounced cfg := by
  refine hreach.invariant ?_ ?_
  · intro start hinit
    obtain ⟨hlifecycle, hstreaks, hpasses⟩ := hinit
    refine ⟨?_, prepared_of_past ?_⟩
    · intro dest
      rw [hstreaks, hpasses]
      rfl
    · rw [hlifecycle]
      trivial
  · intro before action after hbefore hnext
    exact next_debounced hbefore hnext

/-- The close pass closes the channel on its own account: the selector did not
rank it, or its verdict does not count yet. -/
def ClosesForConnectivity (state : DebounceState Id Addr Peer) (id : Id) :
    Prop :=
  id ∉ state.lifecycle.tick.closesRanked ∨
    state.lifecycle.tick.startupPhase = .shieldingConnected

end DebounceState

/-- At least `bound` passes in a row found the destination disconnected, the
last one of them being the last pass of all. -/
def LastFoundDisconnected (bound : ℕ) (dest : Addr)
    (passes : List (Addr → Observation)) : Prop :=
  ∃ older recent, passes = older ++ recent ∧ bound ≤ recent.length ∧
    ∀ pass ∈ recent, pass dest = .disconnected

omit [DecidableEq Addr] in
theorem lastFoundDisconnected_of_run {bound : ℕ} {dest : Addr}
    {passes : List (Addr → Observation)}
    (hrun : bound ≤ disconnectedRun passes dest) :
    LastFoundDisconnected bound dest passes := by
  refine ⟨_, _, List.rdropWhile_append_rtakeWhile.symm, hrun, ?_⟩
  intro pass hmem
  simpa using List.mem_rtakeWhile_imp hmem

open DebounceState in
/-- In every run a close for lost connectivity comes only after enough close
passes in a row, the one at hand included, found its destination disconnected;
and the pass which finds no open channel to a destination drops its streak. -/
theorem connectivityCloses_debounced (cfg : DebounceConfig)
    (before after : DebounceState Id Addr Peer)
    (action : DebounceAction Id Addr Peer)
    (hreach : (debouncedLifecycle cfg).Reachable before)
    (hnext : before.next cfg action = some after) :
    (∀ candidates closeCount dispatchedThisTick sent id,
      before.lifecycle.phase =
        .closing candidates closeCount dispatchedThisTick →
      after.lifecycle.dispatched = before.lifecycle.dispatched ++ sent →
      .close id ∈ sent → before.ClosesForConnectivity id →
      ∃ channel, before.lifecycle.tick.channelById id = some channel ∧
        LastFoundDisconnected (max cfg.closeAfterDisconnectedTicks 1).toNat
          channel.destination before.passes) ∧
      ∀ pass dest, after.passes = before.passes ++ [pass] →
        pass dest = .absent → after.disconnectStreak dest = none := by
  have hbefore := debounced_of_reachable hreach
  have hafter := next_debounced hbefore hnext
  constructor
  · intro candidates closeCount dispatchedThisTick sent id hphase hsent hclose
      hconnectivity
    have hstep : LifecycleState.CloseStep before.lifecycle after.lifecycle
        candidates := by
      rcases dispatched_of_closing hphase hnext with hnothing | hstep
      · rw [hnothing, List.self_eq_append_right] at hsent
        rw [hsent] at hclose
        cases hclose
      · exact hstep
    have hprepared := hbefore.prepared
    unfold Prepared at hprepared
    rw [hphase] at hprepared
    obtain ⟨hlisted, hcandidates, hoverdue⟩ := hprepared
    have hnone : ∀ {others : List (Operation Id Addr)},
        LifecycleState.Sends before.lifecycle after.lifecycle others →
        others = sent := by
      intro others hsends
      rw [hsends.dispatched] at hsent
      exact List.append_cancel_left hsent
    cases hstep with
    | ended _ hsends =>
        rw [← hnone hsends] at hclose
        cases hclose
    | skipped _ _ _ hsends =>
        rw [← hnone hsends] at hclose
        cases hclose
    | @closed first rest _ _ _ hsends hshield =>
        rw [← hnone hsends, List.mem_singleton] at hclose
        cases hclose
        have hdisconnected : id ∈ before.lifecycle.tick.disconnected := by
          rcases hconnectivity with hunranked | hshielding
          · exact (hcandidates id List.mem_cons_self).resolve_left hunranked
          · exact hshield hshielding
        obtain ⟨channel, hopen, hid, hrun⟩ := hoverdue id hdisconnected
        refine ⟨channel, ?_, lastFoundDisconnected_of_run hrun⟩
        rw [← hid]
        exact hlisted.channelById hopen
  · intro pass dest hpass habsent
    rw [hafter.counts dest, hpass, disconnectedRun_concat, habsent]
    rfl

/-- Two passes in a row retire a channel. -/
def twoTicks : DebounceConfig where
  minOpenChannels := 0
  targetOpenChannels := 0
  closeWhenDrainedBelow := HoprBalance.zero
  closeMaxConcurrent := 1
  finalizerEnabled := false
  finalizeMaxConcurrent := 0
  maxConcurrentActions := 1
  actionLeaseTimeout := 10
  closeAfterDisconnectedTicks := 2

/-- A tick with one open channel, whose peer is not connected. -/
def lonelyTick (disconnected : List ℕ) : DebounceAction ℕ ℕ ℕ :=
  .tick
    { lifecycleInputs with
      channels := [⟨7, 5, HoprBalance.saturating 1, .open⟩]
      startupPhase := .expired
      disconnected := disconnected
      peerMapKnown := true }
    ⟨some some, fun _ => false⟩

/-- The second tick closes the channel. -/
theorem connectivityCloses_debounced_second :
    ∃ before after : DebounceState ℕ ℕ ℕ,
      before.next twoTicks (.other (.work none)) = some after ∧
        after.lifecycle.dispatched = [.close 7] ∧
        LastFoundDisconnected 2 5 before.passes := by
  let start : DebounceState ℕ ℕ ℕ :=
    ⟨.initial, ⟨none, fun _ => false⟩, fun _ => none, []⟩
  have hinit : (debouncedLifecycle twoTicks).Reachable start :=
    .init ⟨rfl, rfl, rfl⟩
  have hread := hinit.run
    [lonelyTick [], .other (.work none), lonelyTick [7]] rfl
  have hdebounced := connectivityCloses_debounced twoTicks _ _
    (.other (.work none)) hread rfl
  obtain ⟨channel, hchannel, hfound⟩ :=
    hdebounced.1 [7] 0 0 [.close 7] 7 rfl rfl (List.mem_singleton.mpr rfl)
      (Or.inl (by decide))
  cases hchannel
  refine ⟨_, ?_, ?_, ?_, hfound⟩
  rotate_left
  · rfl
  · rfl

end HoprStrategy.ChannelLifecycle
