import HoprStrategy.Library.TransitionSystem
import Mathlib.Tactic

/-!
# The reopen cooldown

Two observers start the cooldown of a peer: the handler of the `Closed` event,
and a tick which finds an entry `Closed` that it had not seen so before.  They
share the cooldowns and the last observation of each channel.

A channel may be opened and closed again on chain, so its closures are numbered.
An event belongs to one closure and comes at any later time, or never.  Of an
observation only the `closed` flag is kept here.
-/

namespace HoprStrategy.ChannelLifecycle

open Library

section

variable (Id Addr : Type)

/-- The `number`-th closure of the channel. -/
structure Closure where
  id : Id
  number : ℕ
  deriving DecidableEq

/-- What a tick reads of a channel. -/
structure SnapshotEntry where
  id : Id
  closed : Bool
  number : ℕ
  deriving DecidableEq

inductive CooldownPhase where
  | idle
  /-- The tick goes through its snapshot, with the observations from before. -/
  | observing (prev : Id → Option Bool) (entries : List (SnapshotEntry Id))
  | opening (candidates : List Addr)

/-- What is recorded of a run. -/
inductive CooldownRecord where
  | event (closure : Closure Id) (time : ℕ)
  /-- A tick came across the entry. -/
  | read (entry : SnapshotEntry Id) (time : ℕ)
  /-- A closure was observed for the first time. -/
  | sighted (closure : Closure Id) (time : ℕ)
  | started (closure : Closure Id) (time : ℕ)
  | opened (dest : Addr) (time : ℕ)
  deriving DecidableEq

structure CooldownState where
  now : ℕ
  cooldown : Addr → Option ℕ
  lastObserved : Id → Option Bool
  phase : CooldownPhase Id Addr
  closures : Id → ℕ
  closed : Id → Bool
  history : List (CooldownRecord Id Addr)

inductive CooldownAction where
  | pass (now : ℕ)
  | chainOpened (id : Id)
  | chainClosed (id : Id)
  | closedEvent (closure : Closure Id)
  | balanceDecreased (id : Id)
  | tick (ids : List Id)
  | observe
  /-- The snapshot is through; the other gates leave `dests` to open. -/
  | consider (dests : List Addr)
  | openChannel (dest : Addr)
  | finish

end

variable {Id Addr : Type} [DecidableEq Id] [DecidableEq Addr]

/-- The peer of a channel, and the length of a window. -/
structure CooldownSetting (Id Addr : Type) where
  destination : Id → Addr
  peerReopenCooldown : ℕ

namespace CooldownRecord

/-- The closure which a report shows. -/
def observation : CooldownRecord Id Addr → Option (Closure Id)
  | .event closure _ => some closure
  | .read entry _ =>
      if entry.closed then some ⟨entry.id, entry.number⟩ else none
  | .sighted _ _ | .started _ _ | .opened _ _ => none

/-- A report of the channel, from its event or from a tick. -/
def isAbout (id : Id) : CooldownRecord Id Addr → Bool
  | .event closure _ => closure.id = id
  | .read entry _ => entry.id = id
  | .sighted _ _ | .started _ _ | .opened _ _ => false

def readsClosed : CooldownRecord Id Addr → Bool
  | .read entry _ => entry.closed
  | _ => false

end CooldownRecord

namespace CooldownState

def isOnCooldown (state : CooldownState Id Addr) (dest : Addr) : Bool :=
  (state.cooldown dest).any fun expiry => state.now < expiry

def startReopenCooldown (setting : CooldownSetting Id Addr)
    (state : CooldownState Id Addr) (dest : Addr) : CooldownState Id Addr :=
  { state with
    cooldown := Function.update state.cooldown dest
      (some (state.now + setting.peerReopenCooldown)) }

/-- The closures which were observed. -/
def observed (state : CooldownState Id Addr) : List (Closure Id) :=
  state.history.filterMap CooldownRecord.observation

def sighting (state : CooldownState Id Addr) (closure : Closure Id) :
    List (CooldownRecord Id Addr) :=
  if closure ∈ state.observed then [] else [.sighted closure state.now]

def onChannelClosed (setting : CooldownSetting Id Addr)
    (state : CooldownState Id Addr) (closure : Closure Id) :
    CooldownState Id Addr :=
  startReopenCooldown setting { state with
    lastObserved := Function.update state.lastObserved closure.id none
    history := state.history ++ .event closure state.now ::
      (state.sighting closure ++ [.started closure state.now]) }
    (setting.destination closure.id)

/-- Only a channel which was not observed yet gets an observation. -/
def onBalanceDecreased (state : CooldownState Id Addr) (id : Id) :
    CooldownState Id Addr :=
  { state with
    lastObserved := Function.update state.lastObserved id
      (some ((state.lastObserved id).getD false)) }

/-- A tick comes across an entry of its snapshot. -/
def observeEntry (setting : CooldownSetting Id Addr)
    (state : CooldownState Id Addr) (prev : Id → Option Bool)
    (entry : SnapshotEntry Id) : CooldownState Id Addr :=
  let closure : Closure Id := ⟨entry.id, entry.number⟩
  let dest := setting.destination entry.id
  let wasClosed := (prev entry.id).getD false
  let starts := entry.closed && ! wasClosed && ! state.isOnCooldown dest
  let observed :=
    { state with
      lastObserved :=
        Function.update state.lastObserved entry.id (some entry.closed)
      history := state.history ++ .read entry state.now ::
        ((if entry.closed then state.sighting closure else []) ++
          if starts then [.started closure state.now] else []) }
  if starts then startReopenCooldown setting observed dest else observed

def next (setting : CooldownSetting Id Addr)
    (state : CooldownState Id Addr) :
    CooldownAction Id Addr → Option (CooldownState Id Addr)
  | .pass now =>
      if state.now ≤ now then some { state with now := now } else none
  | .chainOpened id =>
      some { state with closed := Function.update state.closed id false }
  | .chainClosed id =>
      if state.closed id then none
      else
        some { state with
          closed := Function.update state.closed id true
          closures := Function.update state.closures id
            (state.closures id + 1) }
  | .closedEvent closure =>
      match state.phase with
      | .idle =>
          if closure.number = 0 ∨ state.closures closure.id < closure.number
          then none
          else some (state.onChannelClosed setting closure)
      | _ => none
  | .balanceDecreased id =>
      match state.phase with
      | .idle => some (state.onBalanceDecreased id)
      | _ => none
  | .tick ids =>
      match state.phase with
      | .idle =>
          some { state with
            phase := .observing state.lastObserved (ids.map fun id =>
              ⟨id, state.closed id, state.closures id⟩) }
      | _ => none
  | .observe =>
      match state.phase with
      | .observing prev (entry :: rest) =>
          some { state.observeEntry setting prev entry with
            phase := .observing prev rest }
      | _ => none
  | .consider dests =>
      match state.phase with
      | .observing _ [] =>
          some { state with
            phase := .opening (dests.filter (! state.isOnCooldown ·)) }
      | _ => none
  | .openChannel dest =>
      match state.phase with
      | .opening candidates =>
          if dest ∈ candidates then
            some { state with
              history := state.history ++ [.opened dest state.now] }
          else none
      | _ => none
  | .finish =>
      match state.phase with
      | .opening _ => some { state with phase := .idle }
      | _ => none

end CooldownState

/-- Nothing is observed at first; the chain may have any closures. -/
def reopenCooldown (setting : CooldownSetting Id Addr) :
    TransitionSystem (CooldownState Id Addr) (CooldownAction Id Addr) where
  init state := state.cooldown = (fun _ => none) ∧
    state.lastObserved = (fun _ => none) ∧ state.phase = .idle ∧
    state.history = []
  next := CooldownState.next setting

namespace CooldownState

variable {setting : CooldownSetting Id Addr}
  {state before after : CooldownState Id Addr}

/-- An open comes only once the window of a closure sighted before is over. -/
def Respects (setting : CooldownSetting Id Addr) :
    CooldownRecord Id Addr → CooldownRecord Id Addr → Prop
  | .sighted closure seen, .opened dest time =>
      dest = setting.destination closure.id →
        seen + setting.peerReopenCooldown ≤ time
  | _, _ => True

def startedClosure : CooldownRecord Id Addr → Option (Closure Id)
  | .started closure _ => some closure
  | _ => none

/-- Each closure starts one window, when it is first observed, and no window is
cut short by an open. -/
structure OneWindow (setting : CooldownSetting Id Addr)
    (state : CooldownState Id Addr) : Prop where
  starts : ∀ closure time, .sighted closure time ∈ state.history →
    .started closure time ∈ state.history
  once : (state.history.filterMap startedClosure).Nodup
  respected : state.history.Pairwise (Respects setting)

/-- The last report of the channel is of a tick which read it `Closed`. -/
def leftClosed (state : CooldownState Id Addr) (id : Id) : Bool :=
  ((state.history.filter (·.isAbout id)).getLast?).any
    CooldownRecord.readsClosed

/-- The entries which ticks came across. -/
def readEntries (state : CooldownState Id Addr) : List (SnapshotEntry Id) :=
  state.history.filterMap fun
    | .read entry _ => some entry
    | _ => none

/-- When the events of a closure came. -/
def eventTimes (state : CooldownState Id Addr) (closure : Closure Id) :
    List ℕ :=
  state.history.filterMap fun
    | .event other time => if other = closure then some time else none
    | _ => none

/-- When the closures of a peer were first observed. -/
def sightingTimes (setting : CooldownSetting Id Addr)
    (state : CooldownState Id Addr) (dest : Addr) : List ℕ :=
  state.history.filterMap fun
    | .sighted closure time =>
        if setting.destination closure.id = dest then some time else none
    | _ => none

/-- The first report of a closure: no tick has read the channel `Closed` since
it was last reported otherwise, and the cooldown has passed since each closure
of its peer was first observed. -/
structure ComesFresh (setting : CooldownSetting Id Addr)
    (state : CooldownState Id Addr) (closure : Closure Id) : Prop where
  unseen : closure ∉ state.observed
  reopened : state.leftClosed closure.id = false
  past : ∀ time ∈ state.sightingTimes setting
      (setting.destination closure.id),
    time + setting.peerReopenCooldown ≤ state.now

instance (setting : CooldownSetting Id Addr) (state : CooldownState Id Addr)
    (closure : Closure Id) : Decidable (state.ComesFresh setting closure) :=
  decidable_of_iff (closure ∉ state.observed ∧
      state.leftClosed closure.id = false ∧
      ∀ time ∈ state.sightingTimes setting (setting.destination closure.id),
        time + setting.peerReopenCooldown ≤ state.now)
    ⟨fun hfresh => ⟨hfresh.1, hfresh.2.1, hfresh.2.2⟩,
      fun hfresh => ⟨hfresh.unseen, hfresh.reopened, hfresh.past⟩⟩

/-- The event of a closure comes once, and before a tick or an event has shown
that closure of the channel or a later one.  A tick reads each channel once; a
closure which it comes across was read by a tick before, or had its event within
the cooldown, or comes fresh. -/
def InOrder (setting : CooldownSetting Id Addr)
    (state : CooldownState Id Addr) : CooldownAction Id Addr → Prop
  | .closedEvent closure =>
      ∀ other ∈ state.observed, other.id = closure.id →
        other.number < closure.number
  | .tick ids => ids.Nodup
  | .observe =>
      match state.phase with
      | .observing _ (entry :: _) =>
          entry.closed = true →
          entry ∈ state.readEntries ∨
            (∃ time ∈ state.eventTimes ⟨entry.id, entry.number⟩,
              state.now < time + setting.peerReopenCooldown) ∨
            state.ComesFresh setting ⟨entry.id, entry.number⟩
      | _ => True
  | _ => True

instance (setting : CooldownSetting Id Addr) (state : CooldownState Id Addr)
    (action : CooldownAction Id Addr) :
    Decidable (state.InOrder setting action) := by
  unfold InOrder
  split
  · infer_instance
  · infer_instance
  · split <;> infer_instance
  · infer_instance

omit [DecidableEq Id] [DecidableEq Addr] in
theorem mem_readEntries {entry : SnapshotEntry Id} :
    entry ∈ state.readEntries ↔ ∃ time, .read entry time ∈ state.history := by
  unfold readEntries
  rw [List.mem_filterMap]
  constructor
  · rintro ⟨record, hmem, hread⟩
    cases record with
    | read other time => exact ⟨time, Option.some.inj hread ▸ hmem⟩
    | _ => cases hread
  · rintro ⟨time, hmem⟩
    exact ⟨_, hmem, rfl⟩

omit [DecidableEq Addr] in
theorem mem_eventTimes {closure : Closure Id} {time : ℕ} :
    time ∈ state.eventTimes closure ↔ .event closure time ∈ state.history := by
  unfold eventTimes
  rw [List.mem_filterMap]
  constructor
  · rintro ⟨record, hmem, hevent⟩
    cases record with
    | event other time =>
        dsimp only at hevent
        split at hevent
        · rename_i heq
          rw [← heq, ← Option.some.inj hevent]
          exact hmem
        · cases hevent
    | _ => cases hevent
  · intro hmem
    exact ⟨_, hmem, if_pos rfl⟩

omit [DecidableEq Id] in
theorem mem_sightingTimes {closure : Closure Id} {time : ℕ} {dest : Addr}
    (hmem : .sighted closure time ∈ state.history)
    (hdest : setting.destination closure.id = dest) :
    time ∈ state.sightingTimes setting dest :=
  List.mem_filterMap.mpr ⟨_, hmem, if_pos hdest⟩

/-! ## The reports and the observations -/

/-- A report agrees with a channel which stands as given. -/
def Agrees (closed : Bool) (number : ℕ) : CooldownRecord Id Addr → Prop
  | .event closure _ => closure.number ≤ number
  | .read entry _ => entry.number ≤ number ∧
      (entry.closed = false → closed = true → entry.number < number)
  | _ => True

/-- What is reported of a channel once a tick has read it `Closed`. -/
def Succeeds : CooldownRecord Id Addr → CooldownRecord Id Addr → Prop
  | .read entry _, .event closure _ => entry.closed = true →
      closure.id = entry.id → entry.number < closure.number
  | .read entry _, .read other _ => entry.closed = true →
      other.id = entry.id → entry.number ≤ other.number
  | _, _ => True

/-- The rest of a snapshot is as it was read, and not reported yet. -/
def SnapshotCurrent (state : CooldownState Id Addr) : Prop :=
  match state.phase with
  | .observing prev entries =>
      (entries.map (·.id)).Nodup ∧ ∀ entry ∈ entries,
        prev entry.id = state.lastObserved entry.id ∧
        (∀ record ∈ state.history, record.isAbout entry.id = true →
          Agrees entry.closed entry.number record) ∧
        entry.number ≤ state.closures entry.id ∧
        (entry.closed = false → state.closed entry.id = true →
          entry.number < state.closures entry.id)
  | _ => True

/-- The reports agree with the chain and the flags with the reports. -/
structure Reported (state : CooldownState Id Addr) : Prop where
  flag : ∀ id, state.lastObserved id = some true ↔ state.leftClosed id = true
  chain : ∀ id, ∀ record ∈ state.history, record.isAbout id = true →
    Agrees (state.closed id) (state.closures id) record
  order : state.history.Pairwise Succeeds
  snapshot : state.SnapshotCurrent

/-- Of a list in order, the last element is the given one or comes after it. -/
theorem eq_or_rel_of_getLast? {α : Type} {R : α → α → Prop} {items : List α}
    {first last : α} (horder : items.Pairwise R) (hfirst : first ∈ items)
    (hlast : items.getLast? = some last) : last = first ∨ R first last := by
  obtain ⟨before, after, rfl⟩ := List.append_of_mem hfirst
  cases after using List.reverseRecOn with
  | nil =>
      rw [List.getLast?_append, List.getLast?_singleton, Option.some_or,
        Option.some.injEq] at hlast
      exact Or.inl hlast.symm
  | append_singleton rest final =>
      rw [← List.cons_append, ← List.append_assoc,
        List.getLast?_concat, Option.some.injEq] at hlast
      rw [← hlast]
      apply Or.inr
      exact List.rel_of_pairwise_cons (List.pairwise_append.mp horder).2.1
        (List.mem_append_right rest (List.mem_singleton_self final))

omit [DecidableEq Addr] in
/-- A closure which a tick has read is still flagged. -/
theorem Reported.leftClosed_of_read (hreported : state.Reported)
    {entry : SnapshotEntry Id} {time : ℕ} (hclosed : entry.closed = true)
    (hread : .read entry time ∈ state.history)
    (hagrees : ∀ record ∈ state.history, record.isAbout entry.id = true →
      Agrees entry.closed entry.number record) :
    state.leftClosed entry.id = true := by
  have habout : CooldownRecord.read entry time ∈
      state.history.filter (·.isAbout entry.id) :=
    List.mem_filter.mpr ⟨hread, by simp [CooldownRecord.isAbout]⟩
  obtain ⟨last, hlast⟩ := Option.isSome_iff_exists.mp
    (List.getLast?_isSome.mpr (List.ne_nil_of_mem habout))
  obtain ⟨hmem, hid⟩ := List.mem_filter.mp (List.mem_of_getLast? hlast)
  have hlatest := hagrees last hmem hid
  unfold leftClosed
  rw [hlast, Option.any_some]
  rcases eq_or_rel_of_getLast? (hreported.order.filter _) habout hlast with
    heq | hlater
  · rw [heq]
    exact hclosed
  · cases last with
    | event closure time =>
        have hid : closure.id = entry.id := of_decide_eq_true hid
        exact absurd (hlater hclosed hid) (Nat.not_lt.mpr hlatest)
    | read other time =>
        have hid : other.id = entry.id := of_decide_eq_true hid
        have hsince := hlater hclosed hid
        by_contra hopen
        have hbelow := hlatest.2 (Bool.eq_false_of_not_eq_true hopen) hclosed
        omega
    | sighted => cases hid
    | started => cases hid
    | opened => cases hid

omit [DecidableEq Addr] in
/-- Records which are not reports change no flag. -/
theorem leftClosed_append {records : List (CooldownRecord Id Addr)} {id : Id}
    (hhistory : after.history = before.history ++ records)
    (hsilent : ∀ record ∈ records, record.isAbout id = false) :
    after.leftClosed id = before.leftClosed id := by
  have hnone : records.filter (·.isAbout id) = [] := by
    rw [List.filter_eq_nil_iff]
    intro record hmem
    rw [hsilent record hmem]
    exact Bool.false_ne_true
  unfold leftClosed
  rw [hhistory, List.filter_append, hnone, List.append_nil]

omit [DecidableEq Addr] in
theorem leftClosed_report {report : CooldownRecord Id Addr}
    {records : List (CooldownRecord Id Addr)} {id : Id}
    (hhistory : after.history = before.history ++ report :: records)
    (habout : report.isAbout id = true)
    (hsilent : ∀ record ∈ records, record.isAbout id = false) :
    after.leftClosed id = report.readsClosed := by
  have hnone : records.filter (·.isAbout id) = [] := by
    rw [List.filter_eq_nil_iff]
    intro record hmem
    rw [hsilent record hmem]
    exact Bool.false_ne_true
  unfold leftClosed
  rw [hhistory, List.filter_append, List.filter_cons_of_pos habout, hnone,
    List.getLast?_concat, Option.any_some]

omit [DecidableEq Addr] in
theorem succeeds_of_silent {first second : CooldownRecord Id Addr}
    (hsilent : ∀ id, second.isAbout id = false) : Succeeds first second := by
  cases second with
  | event closure time => simp [CooldownRecord.isAbout] at hsilent
  | read entry time => simp [CooldownRecord.isAbout] at hsilent
  | sighted => cases first <;> trivial
  | started => cases first <;> trivial
  | opened => cases first <;> trivial

omit [DecidableEq Addr] in
/-- Nothing is reported, and the chain moves on. -/
theorem Reported.keep (hreported : before.Reported)
    {records : List (CooldownRecord Id Addr)}
    (hhistory : after.history = before.history ++ records)
    (hsilent : ∀ record ∈ records, ∀ id, record.isAbout id = false)
    (hflags : ∀ id, after.lastObserved id = some true ↔
      before.lastObserved id = some true)
    (hchain : ∀ id, ∀ record ∈ before.history,
      Agrees (before.closed id) (before.closures id) record →
        Agrees (after.closed id) (after.closures id) record)
    (hsnapshot : after.SnapshotCurrent) : after.Reported := by
  constructor
  · intro id
    rw [leftClosed_append hhistory fun record hmem => hsilent record hmem id,
      ← hreported.flag id]
    exact hflags id
  · intro id record hmem habout
    rw [hhistory] at hmem
    rcases List.mem_append.mp hmem with hold | hnew
    · exact hchain id record hold (hreported.chain id record hold habout)
    · rw [hsilent record hnew id] at habout
      cases habout
  · rw [hhistory, List.pairwise_append]
    refine ⟨hreported.order, ?_, ?_⟩
    · exact List.pairwise_of_forall_mem_list fun _ _ second hmem =>
        succeeds_of_silent (hsilent second hmem)
    · exact fun _ _ second hmem => succeeds_of_silent (hsilent second hmem)
  · exact hsnapshot

omit [DecidableEq Addr] in
/-- A report comes in order, and the flag of its channel follows it. -/
theorem Reported.report (hreported : before.Reported) (id : Id)
    {report : CooldownRecord Id Addr}
    {records : List (CooldownRecord Id Addr)}
    (hhistory : after.history = before.history ++ report :: records)
    (habout : ∀ other, report.isAbout other = true ↔ other = id)
    (hsilent : ∀ record ∈ records, ∀ id, record.isAbout id = false)
    (hflag : after.lastObserved id = some true ↔ report.readsClosed = true)
    (hothers : ∀ other, other ≠ id →
      after.lastObserved other = before.lastObserved other)
    (hclosed : after.closed = before.closed)
    (hclosures : after.closures = before.closures)
    (hagrees : Agrees (before.closed id) (before.closures id) report)
    (horder : ∀ first ∈ before.history, Succeeds first report)
    (hsnapshot : after.SnapshotCurrent) : after.Reported := by
  constructor
  · intro other
    by_cases hid : other = id
    · rw [hid, hflag, leftClosed_report hhistory ((habout id).mpr rfl)
        fun record hmem => hsilent record hmem id]
    · rw [hothers other hid, hreported.flag other,
        ← leftClosed_append hhistory ?_]
      intro record hmem
      rcases List.mem_cons.mp hmem with heq | hmem
      · rw [heq, Bool.eq_false_iff, Ne, habout]
        exact hid
      · exact hsilent record hmem other
  · intro other record hmem hrecord
    rw [hhistory] at hmem
    rw [hclosed, hclosures]
    rcases List.mem_append.mp hmem with hold | hnew
    · exact hreported.chain other record hold hrecord
    rcases List.mem_cons.mp hnew with heq | hnew
    · rw [heq] at hrecord ⊢
      rw [(habout other).mp hrecord]
      exact hagrees
    · rw [hsilent record hnew other] at hrecord
      cases hrecord
  · rw [hhistory, List.pairwise_append]
    refine ⟨hreported.order, ?_, ?_⟩
    · rw [List.pairwise_cons]
      refine ⟨fun second hmem => succeeds_of_silent (hsilent second hmem), ?_⟩
      exact List.pairwise_of_forall_mem_list fun _ _ second hmem =>
        succeeds_of_silent (hsilent second hmem)
    · intro first hfirst second hmem
      rcases List.mem_cons.mp hmem with heq | hmem
      · rw [heq]
        exact horder first hfirst
      · exact succeeds_of_silent (hsilent second hmem)
  · exact hsnapshot

omit [DecidableEq Addr] in
theorem sighting_silent {closure : Closure Id} :
    ∀ record ∈ state.sighting closure, ∀ id,
      record.isAbout id = false := by
  intro record hmem id
  unfold sighting at hmem
  split at hmem
  · cases hmem
  · rw [List.mem_singleton.mp hmem]
    rfl

omit [DecidableEq Id] [DecidableEq Addr] in
theorem mem_observed {closure : Closure Id} {record : CooldownRecord Id Addr}
    (hmem : record ∈ state.history)
    (hshows : record.observation = some closure) :
    closure ∈ state.observed :=
  List.mem_filterMap.mpr ⟨record, hmem, hshows⟩

theorem Reported.closedEvent (hreported : before.Reported)
    {closure : Closure Id} (hphase : before.phase = .idle)
    (hnumber : closure.number ≤ before.closures closure.id)
    (horder : ∀ other ∈ before.observed, other.id = closure.id →
      other.number < closure.number) :
    (before.onChannelClosed setting closure).Reported := by
  refine hreported.report closure.id rfl ?_ ?_ ?_ ?_ rfl rfl hnumber ?_ ?_
  · intro other
    simp [CooldownRecord.isAbout, eq_comm]
  · intro record hmem id
    rcases List.mem_append.mp hmem with hsighted | hstarted
    · exact sighting_silent record hsighted id
    · rw [List.mem_singleton.mp hstarted]
      rfl
  · simp [onChannelClosed, startReopenCooldown, CooldownRecord.readsClosed]
  · intro other hother
    simp [onChannelClosed, startReopenCooldown, Function.update_of_ne hother]
  · intro first hfirst
    cases first with
    | read entry time =>
        intro hclosed hid
        refine horder ⟨entry.id, entry.number⟩ (mem_observed hfirst ?_) hid.symm
        simp [CooldownRecord.observation, hclosed]
    | event => trivial
    | sighted => trivial
    | started => trivial
    | opened => trivial
  · unfold SnapshotCurrent onChannelClosed startReopenCooldown
    dsimp only
    rw [hphase]
    trivial

/-- What a tick leaves of an entry, whether it starts a window or not. -/
theorem observeEntry_fields (setting : CooldownSetting Id Addr)
    (state : CooldownState Id Addr) (prev : Id → Option Bool)
    (entry : SnapshotEntry Id) :
    (state.observeEntry setting prev entry).lastObserved =
        Function.update state.lastObserved entry.id (some entry.closed) ∧
      (state.observeEntry setting prev entry).closed = state.closed ∧
      (state.observeEntry setting prev entry).closures = state.closures ∧
      (state.observeEntry setting prev entry).now = state.now := by
  unfold observeEntry
  dsimp only
  split <;> exact ⟨rfl, rfl, rfl, rfl⟩

theorem observeEntry_history (setting : CooldownSetting Id Addr)
    (state : CooldownState Id Addr) (prev : Id → Option Bool)
    (entry : SnapshotEntry Id) :
    ∃ records, (state.observeEntry setting prev entry).history =
        state.history ++ .read entry state.now :: records ∧
      ∀ record ∈ records, ∀ id, record.isAbout id = false := by
  have hsighting : ∀ record ∈ (if entry.closed = true then
      state.sighting ⟨entry.id, entry.number⟩ else []), ∀ id,
      record.isAbout id = false := by
    intro record hmem
    split at hmem
    · exact sighting_silent record hmem
    · cases hmem
  unfold observeEntry
  dsimp only
  split
  · refine ⟨_, rfl, ?_⟩
    intro record hmem id
    rcases List.mem_append.mp hmem with hsighted | hstarted
    · exact hsighting record hsighted id
    · rw [List.mem_singleton.mp hstarted]
      rfl
  · refine ⟨_, rfl, ?_⟩
    intro record hmem id
    rw [List.append_nil] at hmem
    exact hsighting record hmem id

theorem Reported.observe (hreported : before.Reported)
    {prev : Id → Option Bool} {entry : SnapshotEntry Id}
    {rest : List (SnapshotEntry Id)}
    (hphase : before.phase = .observing prev (entry :: rest)) :
    Reported { before.observeEntry setting prev entry with
      phase := .observing prev rest } := by
  have hsnapshot := hreported.snapshot
  unfold SnapshotCurrent at hsnapshot
  rw [hphase] at hsnapshot
  obtain ⟨hdistinct, hcurrent⟩ := hsnapshot
  rw [List.map_cons, List.nodup_cons] at hdistinct
  obtain ⟨hprev, hagrees, hnumber, hreopened⟩ :=
    hcurrent entry List.mem_cons_self
  obtain ⟨records, hhistory, hsilent⟩ :=
    observeEntry_history setting before prev entry
  obtain ⟨hlast, hclosed, hclosures, _⟩ :=
    observeEntry_fields setting before prev entry
  have habout : ∀ other, (.read entry before.now : CooldownRecord Id Addr).isAbout other =
        true ↔ other = entry.id := by
    simp [CooldownRecord.isAbout, eq_comm]
  refine hreported.report entry.id hhistory habout hsilent ?_ ?_ hclosed
    hclosures ⟨hnumber, hreopened⟩ ?_ ?_
  · dsimp only
    rw [hlast, Function.update_self, Option.some.injEq]
    rfl
  · intro other hother
    dsimp only
    rw [hlast, Function.update_of_ne hother]
  · intro first hfirst
    cases first with
    | read other time =>
        intro _ hid
        exact (hagrees _ hfirst (by simp [CooldownRecord.isAbout, hid])).1
    | event => trivial
    | sighted => trivial
    | started => trivial
    | opened => trivial
  · refine ⟨hdistinct.2, ?_⟩
    intro other hother
    have hne : other.id ≠ entry.id := fun heq =>
      hdistinct.1 (heq ▸ List.mem_map_of_mem hother)
    obtain ⟨hprev, hagrees, hnumber, hreopened⟩ :=
      hcurrent other (List.mem_cons_of_mem _ hother)
    dsimp only
    rw [hlast, hclosed, hclosures, Function.update_of_ne hne]
    refine ⟨hprev, ?_, hnumber, hreopened⟩
    intro record hmem hrecord
    rw [hhistory] at hmem
    rcases List.mem_append.mp hmem with hold | hnew
    · exact hagrees record hold hrecord
    rcases List.mem_cons.mp hnew with heq | hnew
    · rw [heq, habout] at hrecord
      exact absurd hrecord hne
    · rw [hsilent record hnew] at hrecord
      cases hrecord

omit [DecidableEq Addr] in
theorem Reported.tick (hreported : before.Reported) {ids : List Id}
    (hdistinct : ids.Nodup) :
    Reported { before with
      phase := .observing before.lastObserved (ids.map fun id =>
        ⟨id, before.closed id, before.closures id⟩) } := by
  refine hreported.keep (List.append_nil _).symm ?_ (fun _ => Iff.rfl)
    (fun _ _ _ hagrees => hagrees) ?_
  · intro record hmem
    cases hmem
  · refine ⟨by simpa [Function.comp_def] using hdistinct, ?_⟩
    intro entry hentry
    obtain ⟨id, _, rfl⟩ := List.mem_map.mp hentry
    refine ⟨rfl, hreported.chain id, le_rfl, ?_⟩
    intro hopen hclosed
    rw [hclosed] at hopen
    cases hopen

omit [DecidableEq Addr] in
/-- A channel opens, or closes for another time. -/
theorem Reported.chainMoves (hreported : before.Reported) {id : Id}
    {closed : Bool} {number : ℕ}
    (hmoves : ∀ record : CooldownRecord Id Addr,
      Agrees (before.closed id) (before.closures id) record →
        Agrees closed number record) :
    Reported { before with
      closed := Function.update before.closed id closed
      closures := Function.update before.closures id number } := by
  have hsnapshot := hreported.snapshot
  refine hreported.keep (List.append_nil _).symm ?_ (fun _ => Iff.rfl) ?_ ?_
  · intro record hmem
    cases hmem
  · intro other record _ hagrees
    dsimp only
    by_cases hid : other = id
    · rw [hid, Function.update_self, Function.update_self]
      exact hmoves record (hid ▸ hagrees)
    · rw [Function.update_of_ne hid, Function.update_of_ne hid]
      exact hagrees
  · unfold SnapshotCurrent at hsnapshot ⊢
    dsimp only
    split at hsnapshot
    · refine ⟨hsnapshot.1, ?_⟩
      intro entry hentry
      obtain ⟨hprev, hagrees, hcurrent⟩ := hsnapshot.2 entry hentry
      refine ⟨hprev, hagrees, ?_⟩
      by_cases hid : entry.id = id
      · rw [hid, Function.update_self, Function.update_self]
        exact hmoves (.read entry 0) (hid ▸ hcurrent)
      · rw [Function.update_of_ne hid, Function.update_of_ne hid]
        exact hcurrent
    · trivial

theorem next_reported {action : CooldownAction Id Addr}
    (hreported : before.Reported) (horder : before.InOrder setting action)
    (hnext : next setting before action = some after) : after.Reported := by
  cases action with
  | pass now =>
      simp only [next] at hnext
      split at hnext
      · cases hnext
        exact ⟨hreported.flag, hreported.chain, hreported.order,
          hreported.snapshot⟩
      · cases hnext
  | chainOpened id =>
      cases hnext
      have hopened := @Reported.chainMoves _ _ _ _ hreported id false
        (before.closures id) ?_
      · rwa [Function.update_eq_self] at hopened
      · intro record hagrees
        cases record with
        | read entry time => exact ⟨hagrees.1, fun _ hfalse => by cases hfalse⟩
        | event => exact hagrees
        | sighted => trivial
        | started => trivial
        | opened => trivial
  | chainClosed id =>
      simp only [next] at hnext
      split at hnext
      · cases hnext
      · cases hnext
        apply hreported.chainMoves
        intro record hagrees
        cases record with
        | read entry time =>
            exact ⟨Nat.le_succ_of_le hagrees.1,
              fun _ _ => Nat.lt_succ_of_le hagrees.1⟩
        | event => exact Nat.le_succ_of_le hagrees
        | sighted => trivial
        | started => trivial
        | opened => trivial
  | closedEvent closure =>
      simp only [next] at hnext
      split at hnext
      · rename_i hphase
        split at hnext
        · cases hnext
        · rename_i hnumber
          cases hnext
          rw [not_or, Nat.not_lt] at hnumber
          exact hreported.closedEvent hphase hnumber.2 horder
      · cases hnext
  | balanceDecreased id =>
      simp only [next] at hnext
      split at hnext
      · rename_i hphase
        cases hnext
        refine hreported.keep (List.append_nil _).symm ?_ ?_
          (fun _ _ _ hagrees => hagrees) ?_
        · intro record hmem
          cases hmem
        · intro other
          unfold onBalanceDecreased
          dsimp only
          by_cases hid : other = id
          · rw [hid, Function.update_self]
            cases before.lastObserved id with
            | none => simp
            | some flag => simp
          · rw [Function.update_of_ne hid]
        · unfold SnapshotCurrent onBalanceDecreased
          dsimp only
          rw [hphase]
          trivial
      · cases hnext
  | tick ids =>
      simp only [next] at hnext
      split at hnext
      · cases hnext
        exact hreported.tick horder
      · cases hnext
  | observe =>
      simp only [next] at hnext
      split at hnext
      · rename_i prev entry rest hphase
        cases hnext
        exact hreported.observe hphase
      · cases hnext
  | consider dests =>
      simp only [next] at hnext
      split at hnext
      · cases hnext
        exact ⟨hreported.flag, hreported.chain, hreported.order, trivial⟩
      · cases hnext
  | openChannel dest =>
      simp only [next] at hnext
      split at hnext
      · rename_i candidates hphase
        split at hnext
        · cases hnext
          refine hreported.keep rfl ?_ (fun _ => Iff.rfl)
            (fun _ _ _ hagrees => hagrees) ?_
          · intro record hmem id
            rw [List.mem_singleton.mp hmem]
            rfl
          · unfold SnapshotCurrent
            dsimp only
            rw [hphase]
            trivial
        · cases hnext
      · cases hnext
  | finish =>
      simp only [next] at hnext
      split at hnext
      · cases hnext
        exact ⟨hreported.flag, hreported.chain, hreported.order, trivial⟩
      · cases hnext

/-! ## The windows -/

/-- The candidates of the open pass are past their windows. -/
def CandidatesFree (state : CooldownState Id Addr) : Prop :=
  match state.phase with
  | .opening candidates =>
      ∀ dest ∈ candidates, ∀ expiry, state.cooldown dest = some expiry →
        expiry ≤ state.now
  | _ => True

/-- The windows are those of the first observations. -/
structure Covers (setting : CooldownSetting Id Addr)
    (state : CooldownState Id Addr) : Prop where
  seen : ∀ closure, closure ∈ state.observed ↔
    ∃ time, .sighted closure time ∈ state.history
  events : ∀ closure time, .event closure time ∈ state.history →
    .sighted closure time ∈ state.history
  past : ∀ closure time, .sighted closure time ∈ state.history →
    time ≤ state.now
  started : ∀ closure time, .started closure time ∈ state.history ↔
    .sighted closure time ∈ state.history
  once : (state.history.filterMap startedClosure).Nodup
  covered : ∀ closure time, .sighted closure time ∈ state.history →
    ∃ expiry, state.cooldown (setting.destination closure.id) = some expiry ∧
      time + setting.peerReopenCooldown ≤ expiry
  opened : ∀ dest expiry, state.cooldown dest = some expiry →
    ∃ closure time, .sighted closure time ∈ state.history ∧
      setting.destination closure.id = dest ∧
      expiry = time + setting.peerReopenCooldown
  free : state.CandidatesFree
  respected : state.history.Pairwise (Respects setting)

omit [DecidableEq Id] [DecidableEq Addr] in
theorem isOnCooldown_eq_false {dest : Addr} :
    state.isOnCooldown dest = false ↔ ∀ expiry,
      state.cooldown dest = some expiry → expiry ≤ state.now := by
  unfold isOnCooldown
  cases state.cooldown dest with
  | none => simp
  | some expiry => simp

omit [DecidableEq Id] [DecidableEq Addr] in
/-- A step which observes nothing new and opens nothing. -/
theorem Covers.keep (hcovers : before.Covers setting)
    {records : List (CooldownRecord Id Addr)}
    (hhistory : after.history = before.history ++ records)
    (hrecords : ∀ record ∈ records, ∃ entry time, record = .read entry time ∧
      ∀ closure, record.observation = some closure →
        closure ∈ before.observed)
    (hcooldown : after.cooldown = before.cooldown)
    (hnow : before.now ≤ after.now) (hfree : after.CandidatesFree) :
    after.Covers setting := by
  have hmem : ∀ record : CooldownRecord Id Addr,
      (∀ entry time, record ≠ .read entry time) →
      (record ∈ after.history ↔ record ∈ before.history) := by
    intro record hother
    rw [hhistory, List.mem_append]
    apply or_iff_left
    intro hnew
    obtain ⟨entry, time, heq, _⟩ := hrecords record hnew
    exact hother entry time heq
  have hsighted : ∀ closure time,
      CooldownRecord.sighted closure time ∈ after.history ↔
        .sighted closure time ∈ before.history :=
    fun _ _ => hmem _ (by simp)
  constructor
  · intro closure
    simp only [hsighted]
    rw [← hcovers.seen closure]
    unfold observed
    rw [hhistory, List.filterMap_append, List.mem_append]
    apply or_iff_left_of_imp
    intro hnew
    obtain ⟨record, hin, hshows⟩ := List.mem_filterMap.mp hnew
    obtain ⟨_, _, _, hold⟩ := hrecords record hin
    exact hold closure hshows
  · intro closure time hevent
    rw [hmem _ (by simp)] at hevent
    exact (hsighted closure time).mpr (hcovers.events closure time hevent)
  · intro closure time hin
    exact (hcovers.past closure time ((hsighted _ _).mp hin)).trans hnow
  · intro closure time
    rw [hsighted, hmem _ (by simp)]
    exact hcovers.started closure time
  · have hnone : records.filterMap startedClosure = [] := by
      rw [List.filterMap_eq_nil_iff]
      intro record hin
      obtain ⟨entry, time, heq, _⟩ := hrecords record hin
      rw [heq]
      rfl
    rw [hhistory, List.filterMap_append, hnone, List.append_nil]
    exact hcovers.once
  · intro closure time hin
    rw [hcooldown]
    exact hcovers.covered closure time ((hsighted _ _).mp hin)
  · intro dest expiry hexpiry
    rw [hcooldown] at hexpiry
    obtain ⟨closure, time, hin, hopened⟩ := hcovers.opened dest expiry hexpiry
    exact ⟨closure, time, (hsighted _ _).mpr hin, hopened⟩
  · exact hfree
  · rw [hhistory, List.pairwise_append]
    have hreads : ∀ first second : CooldownRecord Id Addr, second ∈ records →
        Respects setting first second := by
      intro first second hin
      obtain ⟨entry, time, heq, _⟩ := hrecords second hin
      rw [heq]
      cases first <;> trivial
    exact ⟨hcovers.respected,
      List.pairwise_of_forall_mem_list fun first _ second hin =>
        hreads first second hin,
      fun first _ second hin => hreads first second hin⟩

omit [DecidableEq Id] in
/-- A closure which is observed for the first time starts its window. -/
theorem Covers.sight (hcovers : before.Covers setting) (closure : Closure Id)
    (report : CooldownRecord Id Addr)
    (hshows : report.observation = some closure)
    (hevent : ∀ other time, report = .event other time →
      other = closure ∧ time = before.now)
    (hunseen : closure ∉ before.observed)
    (hhistory : after.history = before.history ++
      [report, .sighted closure before.now, .started closure before.now])
    (hcooldown : after.cooldown = Function.update before.cooldown
      (setting.destination closure.id)
      (some (before.now + setting.peerReopenCooldown)))
    (hnow : after.now = before.now) (hfree : after.CandidatesFree) :
    after.Covers setting := by
  have hnew : ∀ time, .sighted closure time ∉ before.history :=
    fun time hmem => hunseen ((hcovers.seen closure).mpr ⟨time, hmem⟩)
  have hreport : (∀ other time, report ≠ .sighted other time) ∧
      (∀ other time, report ≠ .started other time) ∧
      ∀ dest time, report ≠ .opened dest time := by
    refine ⟨?_, ?_, ?_⟩ <;>
    · rintro _ _ rfl
      cases hshows
  have hsighted : ∀ other time,
      CooldownRecord.sighted other time ∈ after.history ↔
        .sighted other time ∈ before.history ∨
          other = closure ∧ time = before.now := by
    intro other time
    rw [hhistory, List.mem_append]
    simp [hreport.1 other time |>.symm]
  have hstarted : ∀ other time,
      CooldownRecord.started other time ∈ after.history ↔
        .started other time ∈ before.history ∨
          other = closure ∧ time = before.now := by
    intro other time
    rw [hhistory, List.mem_append]
    simp [hreport.2.1 other time |>.symm]
  constructor
  · intro other
    have hobserved : after.observed = before.observed ++ [closure] := by
      unfold observed
      rw [hhistory, List.filterMap_append, List.filterMap_cons_some hshows]
      rfl
    rw [hobserved, List.mem_append, List.mem_singleton, hcovers.seen other]
    simp only [hsighted]
    constructor
    · rintro (⟨time, hmem⟩ | heq)
      · exact ⟨time, Or.inl hmem⟩
      · exact ⟨before.now, Or.inr ⟨heq, rfl⟩⟩
    · rintro ⟨time, hmem | heq⟩
      · exact Or.inl ⟨time, hmem⟩
      · exact Or.inr heq.1
  · intro other time hmem
    rw [hsighted]
    rw [hhistory, List.mem_append] at hmem
    rcases hmem with hold | hlast
    · exact Or.inl (hcovers.events other time hold)
    · simp only [List.mem_cons, reduceCtorEq, List.not_mem_nil,
        or_false] at hlast
      exact Or.inr (hevent other time hlast.symm)
  · intro other time hmem
    rw [hnow]
    rcases (hsighted other time).mp hmem with hold | hlast
    · exact hcovers.past other time hold
    · exact hlast.2.le
  · intro other time
    rw [hstarted, hsighted, hcovers.started]
  · have hlast : ([report, .sighted closure before.now,
        .started closure before.now] : List (CooldownRecord Id Addr)
          ).filterMap startedClosure = [closure] := by
      cases report with
      | started => cases hshows
      | _ => rfl
    rw [hhistory, List.filterMap_append, hlast]
    refine hcovers.once.append (List.nodup_singleton closure) ?_
    intro other hold heq
    rw [List.mem_filterMap] at hold
    obtain ⟨record, hmem, hstarted⟩ := hold
    cases record with
    | started earlier time =>
        simp only [startedClosure, Option.some.injEq] at hstarted
        rw [hstarted, List.mem_singleton.mp heq] at hmem
        exact hnew time ((hcovers.started closure time).mp hmem)
    | _ => cases hstarted
  · intro other time hmem
    rw [hcooldown]
    by_cases hdest :
        setting.destination other.id = setting.destination closure.id
    · rw [hdest, Function.update_self]
      refine ⟨_, rfl, ?_⟩
      rcases (hsighted other time).mp hmem with hold | hlast
      · have hpast := hcovers.past other time hold
        omega
      · omega
    · rw [Function.update_of_ne hdest]
      rcases (hsighted other time).mp hmem with hold | hlast
      · exact hcovers.covered other time hold
      · exact absurd (congrArg (setting.destination ·.id) hlast.1) hdest
  · intro dest expiry hexpiry
    rw [hcooldown] at hexpiry
    by_cases hdest : dest = setting.destination closure.id
    · rw [hdest, Function.update_self, Option.some.injEq] at hexpiry
      exact ⟨closure, before.now, (hsighted _ _).mpr (Or.inr ⟨rfl, rfl⟩),
        hdest.symm, hexpiry.symm⟩
    · rw [Function.update_of_ne hdest] at hexpiry
      obtain ⟨other, time, hmem, hopened⟩ := hcovers.opened dest expiry hexpiry
      exact ⟨other, time, (hsighted _ _).mpr (Or.inl hmem), hopened⟩
  · exact hfree
  · rw [hhistory, List.pairwise_append]
    have hrest : ∀ first second : CooldownRecord Id Addr,
        second ∈ [report, .sighted closure before.now,
          .started closure before.now] → Respects setting first second := by
      intro first second hmem
      cases second with
      | opened dest time =>
          simp only [List.mem_cons, reduceCtorEq, List.not_mem_nil,
            or_false] at hmem
          exact absurd hmem.symm (hreport.2.2 dest time)
      | _ => cases first <;> trivial
    exact ⟨hcovers.respected,
      List.pairwise_of_forall_mem_list fun first _ second hmem =>
        hrest first second hmem,
      fun first _ second hmem => hrest first second hmem⟩

omit [DecidableEq Id] [DecidableEq Addr] in
/-- A candidate is opened. -/
theorem Covers.open (hcovers : before.Covers setting) {dest : Addr}
    (hdest : ∀ expiry, before.cooldown dest = some expiry →
      expiry ≤ before.now) :
    Covers setting { before with
      history := before.history ++ [.opened dest before.now] } := by
  constructor
  · intro closure
    have hseen := hcovers.seen closure
    simpa [observed, CooldownRecord.observation] using hseen
  · intro closure time hmem
    have hevent := hcovers.events closure time (by simpa using hmem)
    simpa using hevent
  · intro closure time hmem
    exact hcovers.past closure time (by simpa using hmem)
  · intro closure time
    simpa using hcovers.started closure time
  · have hnone : ([.opened dest before.now] :
        List (CooldownRecord Id Addr)).filterMap startedClosure = [] := rfl
    rw [List.filterMap_append, hnone, List.append_nil]
    exact hcovers.once
  · intro closure time hmem
    exact hcovers.covered closure time (by simpa using hmem)
  · intro other expiry hexpiry
    obtain ⟨closure, time, hmem, hopened⟩ :=
      hcovers.opened other expiry hexpiry
    exact ⟨closure, time, List.mem_append_left _ hmem, hopened⟩
  · exact hcovers.free
  · rw [List.pairwise_append]
    refine ⟨hcovers.respected, List.pairwise_singleton _ _, ?_⟩
    intro first hmem second hsecond
    rw [List.mem_singleton.mp hsecond]
    cases first with
    | sighted closure time =>
        intro heq
        obtain ⟨expiry, hexpiry, hlong⟩ := hcovers.covered closure time hmem
        rw [← heq] at hexpiry
        exact hlong.trans (hdest expiry hexpiry)
    | _ => trivial

/-- A tick comes across a closure which is flagged or whose window runs. -/
theorem Covers.observeAgain (hcovers : before.Covers setting)
    {prev : Id → Option Bool} {entry : SnapshotEntry Id}
    {rest : List (SnapshotEntry Id)}
    (hseen : entry.closed = true →
      ⟨entry.id, entry.number⟩ ∈ before.observed ∧
        (prev entry.id = some true ∨
          before.isOnCooldown (setting.destination entry.id) = true)) :
    Covers setting { before.observeEntry setting prev entry with
      phase := .observing prev rest } := by
  have hstarts : (entry.closed && ! (prev entry.id).getD false &&
      ! before.isOnCooldown (setting.destination entry.id)) = false := by
    cases hclosed : entry.closed with
    | false => rfl
    | true =>
        rcases (hseen hclosed).2 with hflag | hwindow
        · rw [hflag]
          rfl
        · rw [hwindow]
          simp
  have hobserved : before.observeEntry setting prev entry = { before with
      lastObserved :=
        Function.update before.lastObserved entry.id (some entry.closed)
      history := before.history ++ [.read entry before.now] } := by
    unfold observeEntry
    dsimp only
    rw [hstarts]
    cases hclosed : entry.closed with
    | false => simp
    | true => simp [sighting, (hseen hclosed).1]
  rw [hobserved]
  refine hcovers.keep rfl ?_ rfl le_rfl trivial
  intro record hmem
  refine ⟨entry, before.now, List.mem_singleton.mp hmem, ?_⟩
  intro closure hshows
  rw [List.mem_singleton.mp hmem] at hshows
  simp only [CooldownRecord.observation, Option.ite_none_right_eq_some,
    Option.some.injEq] at hshows
  exact hshows.2 ▸ (hseen hshows.1).1

/-- A tick is the first to come across a closure, with no flag and no window
left over. -/
theorem Covers.observeFirst (hcovers : before.Covers setting)
    {prev : Id → Option Bool} {entry : SnapshotEntry Id}
    {rest : List (SnapshotEntry Id)} (hclosed : entry.closed = true)
    (hunseen : ⟨entry.id, entry.number⟩ ∉ before.observed)
    (hflag : prev entry.id ≠ some true)
    (hwindow : before.isOnCooldown (setting.destination entry.id) = false) :
    Covers setting { before.observeEntry setting prev entry with
      phase := .observing prev rest } := by
  have hunflagged : (prev entry.id).getD false = false := by
    cases hprev : prev entry.id with
    | none => rfl
    | some flag =>
        rw [hprev, Ne, Option.some.injEq] at hflag
        exact Bool.eq_false_of_not_eq_true hflag
  refine hcovers.sight ⟨entry.id, entry.number⟩ (.read entry before.now) ?_ ?_
    hunseen ?_ ?_ ?_ trivial
  · simp [CooldownRecord.observation, hclosed]
  · intro other time heq
    cases heq
  · simp [observeEntry, hclosed, sighting, hunseen, hunflagged, hwindow,
      startReopenCooldown]
  · simp [observeEntry, hclosed, hunflagged, hwindow, startReopenCooldown]
  · exact (observeEntry_fields setting before prev entry).2.2.2

theorem Covers.observe (hcovers : before.Covers setting)
    (hreported : before.Reported) {prev : Id → Option Bool}
    {entry : SnapshotEntry Id} {rest : List (SnapshotEntry Id)}
    (hphase : before.phase = .observing prev (entry :: rest))
    (horder : before.InOrder setting .observe) :
    Covers setting { before.observeEntry setting prev entry with
      phase := .observing prev rest } := by
  have hsnapshot := hreported.snapshot
  unfold SnapshotCurrent at hsnapshot
  rw [hphase] at hsnapshot
  obtain ⟨hprev, hagrees, _⟩ := hsnapshot.2 entry List.mem_cons_self
  have hflag : prev entry.id = some true ↔
      before.leftClosed entry.id = true := by
    rw [hprev]
    exact hreported.flag entry.id
  cases hclosed : entry.closed with
  | false =>
      apply hcovers.observeAgain
      intro htrue
      rw [hclosed] at htrue
      cases htrue
  | true =>
      unfold InOrder at horder
      simp only [hphase] at horder
      rcases horder hclosed with hread | ⟨time, hevent, hwithin⟩ | hfresh
      · obtain ⟨time, hread⟩ := mem_readEntries.mp hread
        refine hcovers.observeAgain fun _ => ⟨mem_observed hread ?_, ?_⟩
        · simp [CooldownRecord.observation, hclosed]
        · exact Or.inl (hflag.mpr
            (hreported.leftClosed_of_read hclosed hread hagrees))
      · rw [mem_eventTimes] at hevent
        refine hcovers.observeAgain fun _ => ⟨mem_observed hevent rfl, ?_⟩
        obtain ⟨expiry, hexpiry, hlong⟩ :=
          hcovers.covered _ time (hcovers.events _ time hevent)
        apply Or.inr
        rw [isOnCooldown, hexpiry, Option.any_some, decide_eq_true_eq]
        omega
      · refine hcovers.observeFirst hclosed hfresh.unseen ?_ ?_
        · rw [Ne, hflag, hfresh.reopened]
          exact Bool.false_ne_true
        · rw [isOnCooldown_eq_false]
          intro expiry hexpiry
          obtain ⟨other, time, hmem, hdest, hopened⟩ :=
            hcovers.opened _ expiry hexpiry
          rw [hopened]
          exact hfresh.past time (mem_sightingTimes hmem hdest)

theorem next_covers {action : CooldownAction Id Addr}
    (hcovers : before.Covers setting) (hreported : before.Reported)
    (horder : before.InOrder setting action)
    (hnext : next setting before action = some after) :
    after.Covers setting := by
  have hsame : ∀ {after : CooldownState Id Addr},
      after.history = before.history → after.cooldown = before.cooldown →
      before.now ≤ after.now → after.CandidatesFree →
      after.Covers setting := by
    intro after hhistory hcooldown hnow hfree
    refine hcovers.keep (hhistory.trans (List.append_nil _).symm) ?_ hcooldown
      hnow hfree
    intro record hmem
    cases hmem
  cases action with
  | pass now =>
      simp only [next] at hnext
      split at hnext
      · rename_i hle
        cases hnext
        refine hsame rfl rfl hle ?_
        have hfree := hcovers.free
        unfold CandidatesFree at hfree ⊢
        dsimp only
        split at hfree
        · exact fun dest hmem expiry hexpiry =>
            (hfree dest hmem expiry hexpiry).trans hle
        · trivial
      · cases hnext
  | chainOpened id =>
      cases hnext
      exact hsame rfl rfl le_rfl hcovers.free
  | chainClosed id =>
      simp only [next] at hnext
      split at hnext
      · cases hnext
      · cases hnext
        exact hsame rfl rfl le_rfl hcovers.free
  | closedEvent closure =>
      simp only [next] at hnext
      split at hnext
      · rename_i hphase
        split at hnext
        · cases hnext
        · cases hnext
          have hunseen : closure ∉ before.observed := fun hmem =>
            absurd (horder closure hmem rfl) (Nat.lt_irrefl _)
          refine hcovers.sight closure (.event closure before.now) rfl ?_
            hunseen ?_ rfl rfl ?_
          · intro other time heq
            cases heq
            exact ⟨rfl, rfl⟩
          · simp [onChannelClosed, startReopenCooldown, sighting, hunseen]
          · unfold CandidatesFree onChannelClosed startReopenCooldown
            dsimp only
            rw [hphase]
            trivial
      · cases hnext
  | balanceDecreased id =>
      simp only [next] at hnext
      split at hnext
      · cases hnext
        exact hsame rfl rfl le_rfl hcovers.free
      · cases hnext
  | tick ids =>
      simp only [next] at hnext
      split at hnext
      · cases hnext
        exact hsame rfl rfl le_rfl trivial
      · cases hnext
  | observe =>
      simp only [next] at hnext
      split at hnext
      · rename_i prev entry rest hphase
        cases hnext
        exact hcovers.observe hreported hphase horder
      · cases hnext
  | consider dests =>
      simp only [next] at hnext
      split at hnext
      · cases hnext
        refine hsame rfl rfl le_rfl ?_
        intro dest hmem expiry hexpiry
        have hoff := (List.mem_filter.mp hmem).2
        rw [Bool.not_eq_true'] at hoff
        exact isOnCooldown_eq_false.mp hoff expiry hexpiry
      · cases hnext
  | openChannel dest =>
      simp only [next] at hnext
      split at hnext
      · rename_i candidates hphase
        split at hnext
        · rename_i hmem
          cases hnext
          have hfree := hcovers.free
          unfold CandidatesFree at hfree
          rw [hphase] at hfree
          exact hcovers.open (hfree dest hmem)
        · cases hnext
      · cases hnext
  | finish =>
      simp only [next] at hnext
      split at hnext
      · cases hnext
        exact hsame rfl rfl le_rfl trivial
      · cases hnext

/-- What holds between any two steps. -/
structure Sound (setting : CooldownSetting Id Addr)
    (state : CooldownState Id Addr) : Prop where
  covers : state.Covers setting
  reported : state.Reported

/-- In every run in which events, ticks and closures come in order, each closure
starts one window. -/
theorem oneWindow (setting : CooldownSetting Id Addr)
    (hreach : (reopenCooldown setting).ReachableWithin (InOrder setting)
      state) : state.OneWindow setting := by
  have hsound : state.Sound setting := by
    refine hreach.invariant ?_ ?_
    · intro start hinit
      obtain ⟨hcooldown, hlast, hphase, hhistory⟩ := hinit
      have hnone : ∀ record, record ∉ start.history := by
        intro record hmem
        rw [hhistory] at hmem
        cases hmem
      constructor
      · constructor
        · intro closure
          simp [observed, hhistory]
        · exact fun closure time hmem => absurd hmem (hnone _)
        · exact fun closure time hmem => absurd hmem (hnone _)
        · exact fun closure time => iff_of_false (hnone _) (hnone _)
        · rw [hhistory]
          exact List.nodup_nil
        · exact fun closure time hmem => absurd hmem (hnone _)
        · intro dest expiry hexpiry
          rw [hcooldown] at hexpiry
          cases hexpiry
        · unfold CandidatesFree
          rw [hphase]
          trivial
        · rw [hhistory]
          exact List.Pairwise.nil
      · constructor
        · intro id
          simp [leftClosed, hlast, hhistory]
        · exact fun id record hmem => absurd hmem (hnone record)
        · rw [hhistory]
          exact List.Pairwise.nil
        · unfold SnapshotCurrent
          rw [hphase]
          trivial
    · intro before action after hbefore horder hnext
      exact ⟨next_covers hbefore.covers hbefore.reported horder hnext,
        next_reported hbefore.reported horder hnext⟩
  exact ⟨fun closure time => (hsound.covers.started closure time).mpr,
    hsound.covers.once, hsound.covers.respected⟩

def sampleSetting : CooldownSetting ℕ ℕ := ⟨id, 10⟩

/-- Every channel was closed once. -/
def allClosed : CooldownState ℕ ℕ where
  now := 0
  cooldown _ := none
  lastObserved _ := none
  phase := .idle
  closures _ := 1
  closed _ := true
  history := []

/-- The event comes first and a tick within the window; the entry lingers, and
the peer is opened again.  Its next closure is observed by a tick alone. -/
def closedTwice : List (CooldownAction ℕ ℕ) :=
  [.closedEvent ⟨1, 1⟩, .pass 5, .tick [1], .observe, .consider [1], .finish,
    .pass 30, .tick [1], .observe, .consider [1], .openChannel 1, .finish,
    .chainOpened 1, .pass 40, .tick [1], .observe, .consider [], .finish,
    .chainClosed 1, .pass 50, .tick [1], .observe]

theorem oneWindow_closedTwice :
    ∃ state : CooldownState ℕ ℕ,
      (reopenCooldown sampleSetting).run allClosed closedTwice = some state ∧
      .opened 1 30 ∈ state.history ∧
      state.history.filterMap startedClosure = [⟨1, 1⟩, ⟨1, 2⟩] ∧
      state.OneWindow sampleSetting := by
  have hrun : (reopenCooldown sampleSetting).run allClosed closedTwice =
      some _ := rfl
  have horder : (reopenCooldown sampleSetting).Throughout
      (fun before action _ => InOrder sampleSetting before action) allClosed
      closedTwice := by
    decide +kernel
  refine ⟨_, hrun, by decide +kernel, rfl, oneWindow sampleSetting
    (.throughout (.init ⟨rfl, rfl, rfl, rfl⟩) horder hrun)⟩

/-- The event takes the observation away, and the next tick comes after the
window: it takes the entry for a new closure. -/
theorem oneWindow_lateTick :
    ¬ ∀ (setting : CooldownSetting ℕ ℕ) (state : CooldownState ℕ ℕ),
        (reopenCooldown setting).Reachable state →
        state.OneWindow setting := by
  intro hclaim
  have hinit : (reopenCooldown sampleSetting).Reachable allClosed :=
    .init ⟨rfl, rfl, rfl, rfl⟩
  have hreach := hinit.run
    [.closedEvent ⟨1, 1⟩, .pass 20, .tick [1], .observe] rfl
  have honce := (hclaim sampleSetting _ hreach).once
  exact absurd honce (by decide)

end CooldownState

end HoprStrategy.ChannelLifecycle
