import HoprStrategy.LifecycleSteps
import HoprStrategy.TickBudget

/-!
# The strategy's own transactions

A spawned operation is a transaction which is pending until it is mined or its
confirmation fails.  Its lease is given back by its own task, or by a chain
event on its channel, whoever caused that; the events are not tied to the
transactions here, so late and foreign ones come in any order.
-/

namespace HoprStrategy.ChannelLifecycle

open Library

section

variable (Id Addr : Type)

/-- What a lease is taken for. -/
inductive Slot where
  | open (dest : Addr)
  | fund (id : Id)
  | close (id : Id)
  | finalize (id : Id)
  deriving DecidableEq

/-- A transaction whose confirmation has not resolved. -/
structure Sent where
  operation : Operation Id Addr
  holder : UInt64
  sentAt : ℕ
  mined : Bool

structure OwnState where
  strategy : LifecycleState Id Addr
  sent : List (Sent Id Addr)

inductive OwnAction where
  | strategy (action : LifecycleAction Id Addr)
  | mine (index : ℕ)

end

variable {Id Addr : Type} [DecidableEq Id] [DecidableEq Addr]

def Operation.slot : Operation Id Addr → Slot Id Addr
  | .open dest _ => .open dest
  | .fund id _ => .fund id
  | .close id => .close id
  | .finalize id => .finalize id

/-- The slot which a chain event releases. -/
def LifecycleAction.released : LifecycleAction Id Addr → Option (Slot Id Addr)
  | .balanceIncreased id => some (.fund id)
  | .channelOpened dest => some (.open dest)
  | .closureInitiated id => some (.close id)
  | .channelClosed id => some (.finalize id)
  | _ => none

namespace LifecycleState

def LiveLease (state : LifecycleState Id Addr) (lease : Lease) :
    Slot Id Addr → Prop
  | .open dest => (dest, lease) ∈ state.openInFlight.live state.now
  | .fund id => (id, lease) ∈ state.fundInFlight.live state.now
  | .close id => (id, lease) ∈ state.closeInFlight.live state.now
  | .finalize id => (id, lease) ∈ state.finalizeInFlight.live state.now

/-- How often a slot of this kind was asked for. -/
def nextHolder (state : LifecycleState Id Addr) : Slot Id Addr → ℕ
  | .open _ => state.openInFlight.nextHolder
  | .fund _ => state.fundInFlight.nextHolder
  | .close _ => state.closeInFlight.nextHolder
  | .finalize _ => state.finalizeInFlight.nextHolder

end LifecycleState

namespace OwnState

def initial : OwnState Id Addr := ⟨.initial, []⟩

/-- What was sent, next to the operations which are running. -/
def track (before : LifecycleState Id Addr)
    (action : LifecycleAction Id Addr) (after : LifecycleState Id Addr)
    (sent : List (Sent Id Addr)) : List (Sent Id Addr) :=
  match action with
  | .report index => sent.eraseIdx index
  | _ =>
      sent ++ (after.running.drop before.running.length).map
        fun task => ⟨task.1, task.2, before.now, false⟩

def next (cfg : ChannelLifecycleConfig) (world : OwnState Id Addr) :
    OwnAction Id Addr → Option (OwnState Id Addr)
  | .strategy action =>
      (LifecycleState.next cfg world.strategy action).map fun after =>
        ⟨after, track world.strategy action after world.sent⟩
  | .mine index =>
      match world.sent[index]? with
      | some transaction =>
          some { world with
            sent := world.sent.set index { transaction with mined := true } }
      | none => none

/-- Of two own transactions for one slot which are pending together, the first
had lost its lease when the second was sent. -/
def NoDuplicates (cfg : ChannelLifecycleConfig) (world : OwnState Id Addr) :
    Prop :=
  world.sent.Pairwise fun first second =>
    first.mined = false → second.mined = false →
    first.operation.slot = second.operation.slot →
    first.sentAt + cfg.actionLeaseTimeout ≤ second.sentAt

/-- The event reports on a slot for which no own transaction is pending under
its lease. -/
def MeetsNoPending (cfg : ChannelLifecycleConfig) (world : OwnState Id Addr) :
    OwnAction Id Addr → Prop
  | .strategy action =>
      ∀ slot, action.released = some slot →
        ∀ transaction ∈ world.sent, transaction.operation.slot = slot →
          transaction.mined = true ∨
            transaction.sentAt + cfg.actionLeaseTimeout ≤ world.strategy.now
  | .mine _ => True

end OwnState

def ownTransactions (cfg : ChannelLifecycleConfig) :
    TransitionSystem (OwnState Id Addr) (OwnAction Id Addr) where
  init world := world = .initial
  next := OwnState.next cfg

namespace LifecycleState

variable {cfg : ChannelLifecycleConfig}
  {before after : LifecycleState Id Addr}

/-- Live leases stay until they expire. -/
structure Keeps (before after : LifecycleState Id Addr)
    (except : Option (Slot Id Addr)) : Prop where
  now : before.now ≤ after.now
  holders : HoldersGrow before after
  live : ∀ lease slot, some slot ≠ except → before.LiveLease lease slot →
    after.now < lease.heldUntil → after.LiveLease lease slot

omit [DecidableEq Id] [DecidableEq Addr] in
theorem SameLive.liveLease (hsame : SameLive before after) (lease : Lease)
    (slot : Slot Id Addr) :
    after.LiveLease lease slot ↔ before.LiveLease lease slot := by
  cases slot with
  | «open» dest => exact iff_of_eq (congrArg ((dest, lease) ∈ ·) hsame.opens)
  | fund id => exact iff_of_eq (congrArg ((id, lease) ∈ ·) hsame.funds)
  | close id => exact iff_of_eq (congrArg ((id, lease) ∈ ·) hsame.closes)
  | finalize id =>
      exact iff_of_eq (congrArg ((id, lease) ∈ ·) hsame.finalizes)

omit [DecidableEq Id] [DecidableEq Addr] in
theorem SameLive.keeps (hsame : SameLive before after)
    (hnow : after.now = before.now) (hholders : HoldersGrow before after) :
    Keeps before after none :=
  ⟨hnow.ge, hholders, fun lease slot _ hlive _ =>
    (hsame.liveLease lease slot).mpr hlive⟩

omit [DecidableEq Id] [DecidableEq Addr] in
theorem Untouched.holders (hsame : Untouched before after) :
    HoldersGrow before after :=
  ⟨(congrArg ActionLeases.nextHolder hsame.openInFlight).ge,
    (congrArg ActionLeases.nextHolder hsame.fundInFlight).ge,
    (congrArg ActionLeases.nextHolder hsame.closeInFlight).ge,
    (congrArg ActionLeases.nextHolder hsame.finalizeInFlight).ge⟩

omit [DecidableEq Id] [DecidableEq Addr] in
theorem HoldersGrow.nextHolder (hgrow : HoldersGrow before after)
    (slot : Slot Id Addr) : before.nextHolder slot ≤ after.nextHolder slot := by
  cases slot with
  | «open» => exact hgrow.opens
  | fund => exact hgrow.funds
  | close => exact hgrow.closes
  | finalize => exact hgrow.finalizes

/-- A dispatch takes a slot which no live lease was on. -/
structure Took (cfg : ChannelLifecycleConfig)
    (before : LifecycleState Id Addr) (operation : Operation Id Addr)
    (after : LifecycleState Id Addr) : Prop where
  now : after.now = before.now
  running : after.running =
    before.running ++ [(operation, .ofNat (before.nextHolder operation.slot))]
  holders : HoldersGrow before after
  holder : before.nextHolder operation.slot < after.nextHolder operation.slot
  free : ∀ lease, ¬ before.LiveLease lease operation.slot
  live : ∀ lease slot, before.LiveLease lease slot →
    after.LiveLease lease slot
  taken : 0 < cfg.actionLeaseTimeout → after.LiveLease
    ⟨.ofNat (before.nextHolder operation.slot),
      before.now + cfg.actionLeaseTimeout⟩ operation.slot

theorem acquire_facts {Key : Type} [DecidableEq Key]
    {leases : ActionLeases Key} {now timeout : ℕ} {key : Key}
    (hfree : leases.isHeld now key = false) :
    let taken := (leases.acquire now timeout key).2
    taken.nextHolder = leases.nextHolder + 1 ∧
      (∀ lease, (key, lease) ∉ leases.live now) ∧
      leases.live now ⊆ taken.live now ∧
      (0 < timeout →
        (key, ⟨.ofNat leases.nextHolder, now + timeout⟩) ∈
          taken.live now) := by
  have hlive := @ActionLeases.live_acquire _ _ leases now key timeout hfree
  refine ⟨?_, ?_, ?_, ?_⟩
  · rw [ActionLeases.acquire_of_free hfree]
  · intro lease hmem
    have hheld := ActionLeases.isHeld_iff_live.mpr ⟨lease, hmem⟩
    rw [hfree] at hheld
    cases hheld
  · rw [hlive]
    split
    · exact List.subset_cons_self _ _
    · exact List.Subset.refl _
  · intro hpos
    rw [hlive, if_pos hpos]
    exact List.mem_cons_self

theorem Dispatched.took {operation : Operation Id Addr}
    (hdispatched : Dispatched cfg before operation after) :
    Took cfg before operation after := by
  cases hdispatched with
  | «open» hfree =>
      obtain ⟨hholder, hnone, hsubset, htaken⟩ :=
        @acquire_facts _ _ _ _ cfg.actionLeaseTimeout _ hfree
      refine ⟨rfl, rfl, ⟨?_, le_rfl, le_rfl, le_rfl⟩, ?_, hnone, ?_, htaken⟩
      · exact (Nat.le_succ _).trans hholder.ge
      · exact (Nat.lt_succ_self _).trans_le hholder.ge
      · intro lease slot hlive
        cases slot with
        | «open» => exact hsubset hlive
        | fund => exact hlive
        | close => exact hlive
        | finalize => exact hlive
  | fund hfree =>
      obtain ⟨hholder, hnone, hsubset, htaken⟩ :=
        @acquire_facts _ _ _ _ cfg.actionLeaseTimeout _ hfree
      refine ⟨rfl, rfl, ⟨le_rfl, ?_, le_rfl, le_rfl⟩, ?_, hnone, ?_, htaken⟩
      · exact (Nat.le_succ _).trans hholder.ge
      · exact (Nat.lt_succ_self _).trans_le hholder.ge
      · intro lease slot hlive
        cases slot with
        | «open» => exact hlive
        | fund => exact hsubset hlive
        | close => exact hlive
        | finalize => exact hlive
  | close hfree =>
      obtain ⟨hholder, hnone, hsubset, htaken⟩ :=
        @acquire_facts _ _ _ _ cfg.actionLeaseTimeout _ hfree
      refine ⟨rfl, rfl, ⟨le_rfl, le_rfl, ?_, le_rfl⟩, ?_, hnone, ?_, htaken⟩
      · exact (Nat.le_succ _).trans hholder.ge
      · exact (Nat.lt_succ_self _).trans_le hholder.ge
      · intro lease slot hlive
        cases slot with
        | «open» => exact hlive
        | fund => exact hlive
        | close => exact hsubset hlive
        | finalize => exact hlive
  | finalize hfree =>
      obtain ⟨hholder, hnone, hsubset, htaken⟩ :=
        @acquire_facts _ _ _ _ cfg.actionLeaseTimeout _ hfree
      refine ⟨rfl, rfl, ⟨le_rfl, le_rfl, le_rfl, ?_⟩, ?_, hnone, ?_, htaken⟩
      · exact (Nat.le_succ _).trans hholder.ge
      · exact (Nat.lt_succ_self _).trans_le hholder.ge
      · intro lease slot hlive
        cases slot with
        | «open» => exact hlive
        | fund => exact hlive
        | close => exact hlive
        | finalize => exact hsubset hlive

omit [DecidableEq Id] [DecidableEq Addr] in
theorem HoldersGrow.trans {middle : LifecycleState Id Addr}
    (hfirst : HoldersGrow before middle)
    (hsecond : HoldersGrow middle after) : HoldersGrow before after :=
  ⟨hfirst.opens.trans hsecond.opens, hfirst.funds.trans hsecond.funds,
    hfirst.closes.trans hsecond.closes,
    hfirst.finalizes.trans hsecond.finalizes⟩

omit [DecidableEq Id] [DecidableEq Addr] in
theorem Took.untouched {middle : LifecycleState Id Addr}
    {operation : Operation Id Addr} (htook : Took cfg before operation middle)
    (hsame : Untouched middle after) : Took cfg before operation after :=
  have hlive := hsame.sameLive.liveLease
  { now := hsame.now.trans htook.now
    running := hsame.running.trans htook.running
    holders := htook.holders.trans hsame.holders
    holder := htook.holder.trans_le (hsame.holders.nextHolder _)
    free := htook.free
    live := fun lease slot hbefore =>
      (hlive lease slot).mpr (htook.live lease slot hbefore)
    taken := fun hpos => (hlive _ _).mpr (htook.taken hpos) }

/-- The task keeps the live leases and the running operations, or takes one
slot for one operation. -/
theorem Acted.keeps_or_took (hacted : Acted cfg before after) :
    (after.running = before.running ∧ Keeps before after none) ∨
      ∃ operation, Took cfg before operation after := by
  cases hacted with
  | untouched hsame =>
      exact Or.inl ⟨hsame.running,
        hsame.sameLive.keeps hsame.now hsame.holders⟩
  | swept hsame =>
      have hlive := (swept_sameLive before).trans hsame.sameLive
      have hgrow := hsame.holders
      exact Or.inl ⟨hsame.running, hlive.keeps hsame.now
        ⟨hgrow.opens, hgrow.funds, hgrow.closes, hgrow.finalizes⟩⟩
  | tried operation hsame =>
      rcases tryOperation_cases cfg before operation with
        ⟨_, hrefused⟩ | ⟨_, hdispatched, _⟩
      · have hlive := hrefused.live.trans hsame.sameLive
        exact Or.inl ⟨hsame.running.trans hrefused.running,
          hlive.keeps (hsame.now.trans hrefused.now)
            (hrefused.holders.trans hsame.holders)⟩
      · exact Or.inr ⟨operation, hdispatched.took.untouched hsame⟩

theorem mem_live_release {Key : Type} [DecidableEq Key]
    {leases : ActionLeases Key} {now : ℕ} {key : Key} {entry : Key × Lease}
    (hmem : entry ∈ leases.live now) (hne : entry.1 ≠ key) :
    entry ∈ (leases.release key).live now := by
  rw [ActionLeases.mem_live] at hmem ⊢
  exact ⟨List.mem_filter.mpr ⟨hmem.1, by simpa using hne⟩, hmem.2⟩

theorem mem_live_later {Key : Type} {leases : ActionLeases Key}
    {now later : ℕ} {entry : Key × Lease} (hmem : entry ∈ leases.live now)
    (hlater : later < entry.2.heldUntil) : entry ∈ leases.live later := by
  rw [ActionLeases.mem_live] at hmem ⊢
  exact ⟨hmem.1, hlater⟩

/-- Time which passes, and events which release a slot. -/
theorem next_keeps {action : LifecycleAction Id Addr}
    (htask : ¬ action.IsTask) (hreport : ∀ index, action ≠ .report index)
    (hnext : next cfg before action = some after) :
    after.running = before.running ∧ Keeps before after action.released := by
  cases action with
  | tick => exact absurd trivial htask
  | work => exact absurd trivial htask
  | balanceDecreased => exact absurd trivial htask
  | budget => exact absurd trivial htask
  | report index => exact absurd rfl (hreport index)
  | pass now =>
      simp only [next] at hnext
      split at hnext
      · rename_i hle
        cases hnext
        refine ⟨rfl, hle, ⟨le_rfl, le_rfl, le_rfl, le_rfl⟩, ?_⟩
        intro lease slot _ hlive hlater
        cases slot with
        | «open» => exact mem_live_later hlive hlater
        | fund => exact mem_live_later hlive hlater
        | close => exact mem_live_later hlive hlater
        | finalize => exact mem_live_later hlive hlater
      · cases hnext
  | balanceIncreased id =>
      simp only [next] at hnext
      split at hnext
      · cases hnext
        refine ⟨rfl, le_rfl, ⟨le_rfl, le_rfl, le_rfl, le_rfl⟩, ?_⟩
        intro lease slot hne hlive _
        cases slot with
        | fund other =>
            refine mem_live_release hlive ?_
            intro heq
            exact hne (congrArg (fun key => some (Slot.fund key)) heq)
        | «open» => exact hlive
        | close => exact hlive
        | finalize => exact hlive
      · cases hnext
  | channelOpened dest =>
      simp only [next] at hnext
      split at hnext
      · cases hnext
        refine ⟨rfl, le_rfl, ⟨le_rfl, le_rfl, le_rfl, le_rfl⟩, ?_⟩
        intro lease slot hne hlive _
        cases slot with
        | «open» other =>
            refine mem_live_release hlive ?_
            intro heq
            exact hne (congrArg (fun key => some (Slot.open key)) heq)
        | fund => exact hlive
        | close => exact hlive
        | finalize => exact hlive
      · cases hnext
  | closureInitiated id =>
      simp only [next] at hnext
      split at hnext
      · cases hnext
        refine ⟨rfl, le_rfl, ⟨le_rfl, le_rfl, le_rfl, le_rfl⟩, ?_⟩
        intro lease slot hne hlive _
        cases slot with
        | close other =>
            refine mem_live_release hlive ?_
            intro heq
            exact hne (congrArg (fun key => some (Slot.close key)) heq)
        | «open» => exact hlive
        | fund => exact hlive
        | finalize => exact hlive
      · cases hnext
  | channelClosed id =>
      simp only [next] at hnext
      split at hnext
      · cases hnext
        refine ⟨rfl, le_rfl, ⟨le_rfl, le_rfl, le_rfl, le_rfl⟩, ?_⟩
        intro lease slot hne hlive _
        cases slot with
        | finalize other =>
            refine mem_live_release hlive ?_
            intro heq
            exact hne (congrArg (fun key => some (Slot.finalize key)) heq)
        | «open» => exact hlive
        | fund => exact hlive
        | close => exact hlive
      · cases hnext

theorem reported_now (state : LifecycleState Id Addr)
    (operation : Operation Id Addr) (holder : UInt64) :
    (state.reported operation holder).now = state.now := by
  cases operation with
  | «open» => rfl
  | fund => rfl
  | close => rfl
  | finalize => rfl

theorem reported_nextHolder (state : LifecycleState Id Addr)
    (operation : Operation Id Addr) (holder : UInt64) (slot : Slot Id Addr) :
    (state.reported operation holder).nextHolder slot =
      state.nextHolder slot := by
  cases operation with
  | «open» => cases slot <;> rfl
  | fund => cases slot <;> rfl
  | close => cases slot <;> rfl
  | finalize => cases slot <;> rfl

/-- A task which reports takes its own lease off, and no other. -/
theorem reported_live {operation : Operation Id Addr} {holder : UInt64}
    {index : ℕ} {lease : Lease} {slot : Slot Id Addr}
    (hother : slot = operation.slot → lease.holder ≠ holder)
    (hlive : before.LiveLease lease slot) :
    LiveLease { before.reported operation holder with
      running := before.running.eraseIdx index } lease slot := by
  have hkept {Key : Type} [DecidableEq Key] {leases : ActionLeases Key}
      {key released : Key} (hne : key = released → lease.holder ≠ holder)
      (hmem : (key, lease) ∈ leases.live before.now) :
      (key, lease) ∈ (leases.releaseOwned released holder).live before.now := by
    rw [ActionLeases.mem_live] at hmem ⊢
    refine ⟨List.mem_filter.mpr ⟨hmem.1, ?_⟩, hmem.2⟩
    simpa using not_or_of_imp hne
  cases operation with
  | «open» dest amount =>
      cases slot with
      | «open» other => exact hkept (fun h => hother (congrArg _ h)) hlive
      | fund => exact hlive
      | close => exact hlive
      | finalize => exact hlive
  | fund id amount =>
      cases slot with
      | fund other => exact hkept (fun h => hother (congrArg _ h)) hlive
      | «open» => exact hlive
      | close => exact hlive
      | finalize => exact hlive
  | close id =>
      cases slot with
      | close other => exact hkept (fun h => hother (congrArg _ h)) hlive
      | «open» => exact hlive
      | fund => exact hlive
      | finalize => exact hlive
  | finalize id =>
      cases slot with
      | finalize other => exact hkept (fun h => hother (congrArg _ h)) hlive
      | «open» => exact hlive
      | fund => exact hlive
      | close => exact hlive

omit [DecidableEq Id] [DecidableEq Addr] in
theorem nextHolder_le {state : LifecycleState Id Addr} {bound : ℕ}
    (hopens : state.openInFlight.nextHolder ≤ bound)
    (hfunds : state.fundInFlight.nextHolder ≤ bound)
    (hcloses : state.closeInFlight.nextHolder ≤ bound)
    (hfinalizes : state.finalizeInFlight.nextHolder ≤ bound)
    (slot : Slot Id Addr) : state.nextHolder slot ≤ bound := by
  cases slot with
  | «open» => exact hopens
  | fund => exact hfunds
  | close => exact hcloses
  | finalize => exact hfinalizes

end LifecycleState

/-! ## Runs -/

namespace OwnState

open LifecycleState

variable {cfg : ChannelLifecycleConfig} {world after : OwnState Id Addr}

/-- The transaction of an operation which is dispatched. -/
def sentNow (before : LifecycleState Id Addr)
    (operation : Operation Id Addr) : Sent Id Addr :=
  ⟨operation, .ofNat (before.nextHolder operation.slot), before.now, false⟩

/-- Two transactions are not confused: those for one slot have different
holders. -/
def Apart (first second : Sent Id Addr) : Prop :=
  first.operation.slot = second.operation.slot → first.holder ≠ second.holder

/-- A pending transaction holds its lease until that expires. -/
def Holds (cfg : ChannelLifecycleConfig) (state : LifecycleState Id Addr)
    (transaction : Sent Id Addr) : Prop :=
  transaction.mined = false →
  state.now < transaction.sentAt + cfg.actionLeaseTimeout →
  state.LiveLease
    ⟨transaction.holder, transaction.sentAt + cfg.actionLeaseTimeout⟩
    transaction.operation.slot

structure Tracked (cfg : ChannelLifecycleConfig) (world : OwnState Id Addr) :
    Prop where
  running : world.sent.map (fun transaction =>
    (transaction.operation, transaction.holder)) = world.strategy.running
  holders : ∀ transaction ∈ world.sent, transaction.holder.toNat <
    world.strategy.nextHolder transaction.operation.slot
  apart : world.sent.Pairwise Apart
  held : ∀ transaction ∈ world.sent, Holds cfg world.strategy transaction
  noDuplicates : world.NoDuplicates cfg

omit [DecidableEq Id] [DecidableEq Addr] in
theorem Tracked.initial : (OwnState.initial : OwnState Id Addr).Tracked cfg :=
  { running := rfl
    holders := fun _ hmem => by cases hmem
    apart := List.Pairwise.nil
    held := fun _ hmem => by cases hmem
    noDuplicates := List.Pairwise.nil }

omit [DecidableEq Id] [DecidableEq Addr] in
theorem Tracked.keep (htracked : world.Tracked cfg)
    {state : LifecycleState Id Addr} {except : Option (Slot Id Addr)}
    (hrunning : state.running = world.strategy.running)
    (hkeeps : Keeps world.strategy state except)
    (hexcept : ∀ slot, except = some slot → ∀ transaction ∈ world.sent,
      transaction.operation.slot = slot → transaction.mined = true ∨
        transaction.sentAt + cfg.actionLeaseTimeout ≤ world.strategy.now) :
    Tracked cfg ⟨state, world.sent⟩ := by
  refine ⟨htracked.running.trans hrunning.symm, ?_, htracked.apart, ?_,
    htracked.noDuplicates⟩
  · intro transaction hmem
    exact (htracked.holders transaction hmem).trans_le
      (hkeeps.holders.nextHolder _)
  · intro transaction hmem hpending hlive
    have hbefore : world.strategy.now <
        transaction.sentAt + cfg.actionLeaseTimeout :=
      hkeeps.now.trans_lt hlive
    refine hkeeps.live _ _ ?_
      (htracked.held transaction hmem hpending hbefore) hlive
    intro heq
    rcases hexcept _ heq.symm transaction hmem rfl with hmined | hexpired
    · rw [hpending] at hmined
      cases hmined
    · omega

omit [DecidableEq Id] [DecidableEq Addr] in
/-- A slot is taken only after the transactions for it have lost their
leases, and while the counter has not wrapped its holder is a new one. -/
theorem Tracked.take (htracked : world.Tracked cfg)
    {state : LifecycleState Id Addr} {operation : Operation Id Addr}
    (htook : Took cfg world.strategy operation state)
    (hattempts : ∀ slot, state.nextHolder slot ≤ 2 ^ 64) :
    Tracked cfg ⟨state, world.sent ++ [sentNow world.strategy operation]⟩ := by
  have hnumber : world.strategy.nextHolder operation.slot < 2 ^ 64 :=
    htook.holder.trans_le (hattempts _)
  have hpairs {R : Sent Id Addr → Sent Id Addr → Prop}
      {transaction : Sent Id Addr} (hold : world.sent.Pairwise R)
      (hnew : ∀ first ∈ world.sent, R first transaction) :
      (world.sent ++ [transaction]).Pairwise R := by
    rw [List.pairwise_append]
    refine ⟨hold, List.pairwise_singleton _ _, ?_⟩
    intro first hmem second hsecond
    rw [List.mem_singleton.mp hsecond]
    exact hnew first hmem
  constructor
  · rw [htook.running, ← htracked.running]
    simp [sentNow]
  · intro transaction hmem
    rcases List.mem_append.mp hmem with hold | hnew
    · exact (htracked.holders transaction hold).trans_le
        (htook.holders.nextHolder _)
    · rw [List.mem_singleton.mp hnew]
      exact (Nat.mod_le _ _).trans_lt htook.holder
  · refine hpairs htracked.apart ?_
    intro first hmem hslot heq
    have hlt := htracked.holders first hmem
    rw [hslot, heq] at hlt
    exact absurd (UInt64.toNat_ofNat_of_lt' hnumber) hlt.ne
  · intro transaction hmem hpending hlive
    rw [htook.now] at hlive
    rcases List.mem_append.mp hmem with hold | hnew
    · exact htook.live _ _ (htracked.held transaction hold hpending hlive)
    · have heq := List.mem_singleton.mp hnew
      subst heq
      dsimp only [sentNow] at hlive
      exact htook.taken (by omega)
  · refine hpairs htracked.noDuplicates ?_
    intro first hmem hpending _ hslot
    by_contra hlive
    have hheld := htracked.held first hmem hpending (Nat.lt_of_not_le hlive)
    rw [hslot] at hheld
    exact htook.free _ hheld

omit [DecidableEq Id] [DecidableEq Addr] in
theorem mem_eraseIdx_apart {sent : List (Sent Id Addr)} {index : ℕ}
    {reported other : Sent Id Addr} (hapart : sent.Pairwise Apart)
    (hreported : sent[index]? = some reported)
    (hother : other ∈ sent.eraseIdx index) :
    other.operation.slot = reported.operation.slot →
      other.holder ≠ reported.holder := by
  intro hslot
  rw [List.mem_eraseIdx_iff_getElem?] at hother
  obtain ⟨position, hne, hposition⟩ := hother
  obtain ⟨hlt, hget⟩ := List.getElem?_eq_some_iff.mp hreported
  obtain ⟨hlt', hget'⟩ := List.getElem?_eq_some_iff.mp hposition
  rw [List.pairwise_iff_getElem] at hapart
  rcases Nat.lt_or_gt_of_ne hne with hbefore | hafter
  · have h := hapart position index hlt' hlt hbefore
    rw [hget, hget'] at h
    exact h hslot
  · have h := hapart index position hlt hlt' hafter
    rw [hget, hget'] at h
    exact (h hslot.symm).symm

theorem Tracked.report (htracked : world.Tracked cfg) {index : ℕ}
    {holder : UInt64} {operation : Operation Id Addr}
    (hrunning : world.strategy.running[index]? = some (operation, holder)) :
    Tracked cfg ⟨{ world.strategy.reported operation holder with
      running := world.strategy.running.eraseIdx index },
      world.sent.eraseIdx index⟩ := by
  have hsublist := List.eraseIdx_sublist world.sent index
  rw [← htracked.running, List.getElem?_map, Option.map_eq_some_iff]
    at hrunning
  obtain ⟨reported, hreported, heq⟩ := hrunning
  cases heq
  have hnow := reported_now world.strategy reported.operation reported.holder
  constructor
  · dsimp only
    rw [← htracked.running, List.eraseIdx_map]
  · intro transaction hmem
    have hlt := htracked.holders transaction (hsublist.subset hmem)
    exact hlt.trans_le (reported_nextHolder _ _ _ _).ge
  · exact htracked.apart.sublist hsublist
  · intro transaction hmem hpending hlive
    have hlive' : world.strategy.now <
        transaction.sentAt + cfg.actionLeaseTimeout := by
      rw [← hnow]
      exact hlive
    refine reported_live ?_
      (htracked.held transaction (hsublist.subset hmem) hpending hlive')
    exact mem_eraseIdx_apart htracked.apart hreported hmem
  · exact List.Pairwise.sublist hsublist htracked.noDuplicates

omit [DecidableEq Id] [DecidableEq Addr] in
theorem pairwise_set_mined {R : Sent Id Addr → Sent Id Addr → Prop}
    {sent : List (Sent Id Addr)} {index : ℕ} {transaction : Sent Id Addr}
    (hget : sent[index]? = some transaction) (hpairs : sent.Pairwise R)
    (hfirst : ∀ other, R transaction other →
      R { transaction with mined := true } other)
    (hsecond : ∀ other, R other transaction →
      R other { transaction with mined := true }) :
    (sent.set index { transaction with mined := true }).Pairwise R := by
  obtain ⟨hlt, hget⟩ := List.getElem?_eq_some_iff.mp hget
  rw [List.pairwise_iff_getElem] at hpairs ⊢
  intro i j hi hj hij
  rw [List.length_set] at hi hj
  have hpair := hpairs i j hi hj hij
  rw [List.getElem_set, List.getElem_set]
  by_cases hfirst' : index = i
  · subst hfirst'
    rw [if_pos rfl, if_neg (by omega)]
    rw [hget] at hpair
    exact hfirst _ hpair
  · rw [if_neg hfirst']
    by_cases hsecond' : index = j
    · subst hsecond'
      rw [if_pos rfl]
      rw [hget] at hpair
      exact hsecond _ hpair
    · rw [if_neg hsecond']
      exact hpair

omit [DecidableEq Id] [DecidableEq Addr] in
theorem Tracked.mine (htracked : world.Tracked cfg) {index : ℕ}
    {transaction : Sent Id Addr}
    (hget : world.sent[index]? = some transaction) :
    Tracked cfg { world with
      sent := world.sent.set index { transaction with mined := true } } := by
  have hmem := List.mem_of_getElem? hget
  have hcases : ∀ other ∈
      world.sent.set index { transaction with mined := true },
      other ∈ world.sent ∨ other = { transaction with mined := true } :=
    fun other hother => List.mem_or_eq_of_mem_set hother
  constructor
  · rw [← htracked.running]
    dsimp only
    rw [List.map_set]
    apply List.ext_getElem?
    intro position
    rw [List.getElem?_set]
    split
    · rename_i heq
      subst heq
      rw [List.getElem?_map, hget]
      obtain ⟨hlt, _⟩ := List.getElem?_eq_some_iff.mp hget
      simp [hlt]
    · rfl
  · intro other hother
    rcases hcases other hother with hold | hnew
    · exact htracked.holders other hold
    · rw [hnew]
      exact htracked.holders transaction hmem
  · exact pairwise_set_mined hget htracked.apart (fun _ h => h) (fun _ h => h)
  · intro other hother
    rcases hcases other hother with hold | hnew
    · exact htracked.held other hold
    · intro hpending
      rw [hnew] at hpending
      cases hpending
  · refine pairwise_set_mined hget htracked.noDuplicates ?_ ?_
    · intro other _ hpending
      cases hpending
    · intro other _ _ hpending
      cases hpending

omit [DecidableEq Id] [DecidableEq Addr] in
theorem track_of_running {before state : LifecycleState Id Addr}
    {action : LifecycleAction Id Addr} {sent : List (Sent Id Addr)}
    (hreport : ∀ index, action ≠ .report index)
    (hrunning : state.running = before.running) :
    track before action state sent = sent := by
  have hdrop : state.running.drop before.running.length = [] := by
    rw [hrunning, List.drop_length]
  cases action with
  | report index => exact absurd rfl (hreport index)
  | _ => simp [track, hdrop]

omit [DecidableEq Id] [DecidableEq Addr] in
theorem track_of_took {before state : LifecycleState Id Addr}
    {action : LifecycleAction Id Addr} {sent : List (Sent Id Addr)}
    {operation : Operation Id Addr}
    (hreport : ∀ index, action ≠ .report index)
    (htook : Took cfg before operation state) :
    track before action state sent = sent ++ [sentNow before operation] := by
  have hdrop : state.running.drop before.running.length =
      [(operation, .ofNat (before.nextHolder operation.slot))] := by
    rw [htook.running, List.drop_left]
  cases action with
  | report index => exact absurd rfl (hreport index)
  | _ => simp [track, hdrop, sentNow]

/-- What an action does to the transactions which are pending. -/
inductive Moved (cfg : ChannelLifecycleConfig) (world : OwnState Id Addr) :
    OwnAction Id Addr → OwnState Id Addr → Prop
  | kept {action : LifecycleAction Id Addr} {state : LifecycleState Id Addr}
      (hrunning : state.running = world.strategy.running)
      (hkeeps : Keeps world.strategy state action.released) :
      Moved cfg world (.strategy action) ⟨state, world.sent⟩
  | took {action : LifecycleAction Id Addr} {state : LifecycleState Id Addr}
      {operation : Operation Id Addr}
      (htook : Took cfg world.strategy operation state) :
      Moved cfg world (.strategy action)
        ⟨state, world.sent ++ [sentNow world.strategy operation]⟩
  | reported {index : ℕ} {holder : UInt64} {operation : Operation Id Addr}
      (hrunning : world.strategy.running[index]? = some (operation, holder)) :
      Moved cfg world (.strategy (.report index))
        ⟨{ world.strategy.reported operation holder with
          running := world.strategy.running.eraseIdx index },
          world.sent.eraseIdx index⟩
  | mined {index : ℕ} {transaction : Sent Id Addr}
      (hget : world.sent[index]? = some transaction) :
      Moved cfg world (.mine index) { world with
        sent := world.sent.set index { transaction with mined := true } }

omit [DecidableEq Id] [DecidableEq Addr] in
theorem released_of_isTask {action : LifecycleAction Id Addr}
    (htask : action.IsTask) : action.released = none := by
  cases action with
  | tick => rfl
  | work => rfl
  | balanceDecreased => rfl
  | budget => rfl
  | _ => exact htask.elim

theorem next_moved {action : OwnAction Id Addr}
    (hnext : next cfg world action = some after) :
    Moved cfg world action after := by
  cases action with
  | mine index =>
      simp only [next] at hnext
      split at hnext
      · rename_i transaction hget
        cases hnext
        exact .mined hget
      · cases hnext
  | strategy action =>
      simp only [next, Option.map_eq_some_iff] at hnext
      obtain ⟨state, hstate, heq⟩ := hnext
      subst heq
      by_cases htask : action.IsTask
      · have hreport : ∀ index, action ≠ .report index := by
          intro index heq
          rw [heq] at htask
          exact htask
        rcases (next_acted htask hstate).keeps_or_took with
          ⟨hrunning, hkeeps⟩ | ⟨operation, htook⟩
        · rw [track_of_running hreport hrunning]
          exact .kept hrunning (released_of_isTask htask ▸ hkeeps)
        · rw [track_of_took hreport htook]
          exact .took htook
      · by_cases hreport : ∃ index, action = .report index
        · obtain ⟨index, heq⟩ := hreport
          subst heq
          simp only [LifecycleState.next] at hstate
          split at hstate
          · rename_i operation holder hrunning
            cases hstate
            exact .reported hrunning
          · cases hstate
        · have hreport' : ∀ index, action ≠ .report index :=
            fun index heq => hreport ⟨index, heq⟩
          obtain ⟨hrunning, hkeeps⟩ := next_keeps htask hreport' hstate
          rw [track_of_running hreport' hrunning]
          exact .kept hrunning hkeeps

theorem Moved.nextHolder {action : OwnAction Id Addr}
    (hmoved : Moved cfg world action after) (slot : Slot Id Addr) :
    world.strategy.nextHolder slot ≤ after.strategy.nextHolder slot := by
  cases hmoved with
  | kept _ hkeeps => exact hkeeps.holders.nextHolder slot
  | took htook => exact htook.holders.nextHolder slot
  | reported => exact (reported_nextHolder _ _ _ slot).ge
  | mined => exact le_rfl

theorem Moved.tracked {action : OwnAction Id Addr}
    (hmoved : Moved cfg world action after) (htracked : world.Tracked cfg)
    (hmeets : world.MeetsNoPending cfg action)
    (hattempts : ∀ slot, after.strategy.nextHolder slot ≤ 2 ^ 64) :
    after.Tracked cfg := by
  cases hmoved with
  | kept hrunning hkeeps => exact htracked.keep hrunning hkeeps hmeets
  | took htook => exact htracked.take htook hattempts
  | reported hrunning => exact htracked.report hrunning
  | mined hget => exact htracked.mine hget

/-- As long as every chain event finds no own transaction of its kind pending
under a lease, and the counters of the leases have not wrapped, an own
transaction is doubled only after its lease expired. -/
theorem noDuplicateTransactions (cfg : ChannelLifecycleConfig)
    {world : OwnState Id Addr}
    (hreach : (ownTransactions cfg).ReachableWithin (MeetsNoPending cfg) world)
    (hattempts : ∀ slot, world.strategy.nextHolder slot ≤ 2 ^ 64) :
    world.NoDuplicates cfg := by
  have htracked : world.Tracked cfg := by
    revert hattempts
    apply hreach.invariant
    · intro start hinit _
      cases hinit
      exact .initial
    · intro before action after hbefore hmeets hnext hattempts
      have hmoved := next_moved hnext
      have htracked := hbefore fun slot =>
        (hmoved.nextHolder slot).trans (hattempts slot)
      exact hmoved.tracked htracked hmeets hattempts
  exact htracked.noDuplicates

/-- A drained channel is topped up, and the tick is over. -/
def topUp (id : ℕ) (balance : ℕ) : List (OwnAction ℕ ℕ) :=
  [.strategy (.tick { drainedInputs with
      channels := [⟨id, 7, .saturating balance, .open⟩] }),
    .strategy (.work none), .strategy (.work none)]

/-- The event of a mined top-up comes before the next one is sent. -/
theorem noDuplicateTransactions_topUps :
    ∃ world : OwnState ℕ ℕ,
      (ownTransactions sampleConfig).ReachableWithin
        (MeetsNoPending sampleConfig) world ∧
      world.sent.length = 2 ∧ world.NoDuplicates sampleConfig := by
  have hinit : (ownTransactions sampleConfig).ReachableWithin
      (MeetsNoPending sampleConfig) (OwnState.initial : OwnState ℕ ℕ) :=
    .init rfl
  have hsilent : ∀ before : OwnState ℕ ℕ, ∀ action ∈ topUp 1 0 ++ [.mine 0],
      MeetsNoPending sampleConfig before action := by
    intro before action hmem
    fin_cases hmem
    · intro slot heq
      cases heq
    · intro slot heq
      cases heq
    · intro slot heq
      cases heq
    · trivial
  have hfirst := hinit.run (topUp 1 0 ++ [.mine 0]) hsilent rfl
  have hevent := @TransitionSystem.ReachableWithin.step _ _ _ _ _ _
    (.strategy (.balanceIncreased 1)) hfirst ?_ rfl
  · have hsecond := hevent.run (topUp 1 0) (fun before action hmem =>
      hsilent before action (List.mem_append_left _ hmem)) rfl
    refine ⟨_, hsecond, rfl,
      noDuplicateTransactions sampleConfig hsecond ?_⟩
    exact nextHolder_le (by decide) (by decide) (by decide) (by decide)
  · intro slot _ transaction hmem _
    rw [List.eq_of_mem_singleton hmem]
    exact Or.inl rfl

/-- The event of the first top-up comes late and releases the lease of the
second, so that a third one is sent next to it. -/
theorem noDuplicateTransactions_lateEvent :
    ¬ ∀ (cfg : ChannelLifecycleConfig) (world : OwnState ℕ ℕ),
        (ownTransactions cfg).Reachable world → world.NoDuplicates cfg := by
  intro hclaim
  have hinit : (ownTransactions sampleConfig).Reachable
      (OwnState.initial : OwnState ℕ ℕ) := .init rfl
  have hreach := hinit.run
    (topUp 1 0 ++ [.mine 0, .strategy (.report 0)] ++ topUp 1 3 ++
      [.strategy (.balanceIncreased 1)] ++ topUp 1 3) rfl
  have hpairs := hclaim sampleConfig _ hreach
  have hexpired := List.rel_of_pairwise_cons hpairs List.mem_cons_self
    rfl rfl rfl
  exact absurd hexpired (by decide)

end OwnState

end HoprStrategy.ChannelLifecycle
