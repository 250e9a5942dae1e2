import HoprStrategy.SpendCap

/-!
# What the ledger entries hold after any calls

Here the ledger is on its own: reservations, refunds and reads come in any
order, and every read may ask for another window.  The entries still tile the
live part of the history, so that a refund either finds the one entry which
counts it, or finds none.
-/

namespace HoprStrategy.Pix

open Library

inductive LedgerCall where
  | commit (amount : HoprBalance) (now : ℕ)
  /-- Hands the reservation with this index back. -/
  | release (index : ℕ)
  | spent (window now : ℕ)
  deriving DecidableEq

namespace LedgerState

/-- The history after a read of the window. -/
def read (state : LedgerState) (window now : ℕ) : LedgerState :=
  { state with
    ledger := (state.ledger.spent window now).2
    clock := now }

def call (state : LedgerState) : LedgerCall → Option LedgerState
  | .commit amount now =>
      if state.clock ≤ now then some (state.reserved amount now) else none
  | .release index =>
      match state.reservations[index]? with
      | none => none
      | some entry => some (state.refunded index entry)
  | .spent window now =>
      if state.clock ≤ now then some (state.read window now) else none

/-- The amounts of the not-released reservations whose numbers lie in the range
of `entry`. -/
def outstandingIn (state : LedgerState) (entry : SpendEntry) : ℕ :=
  ∑ index ∈ Finset.range state.reservations.length,
    if (state.reservations[index]?).any fun reservation =>
        entry.contains reservation.seqs.1
      then state.outstanding index else 0

/-- The entries answer for consecutive ranges of the history, each with what
its range still commits. -/
structure Represents (state : LedgerState) : Prop where
  amounts : ∀ entry ∈ state.ledger.entries,
    entry.amount.wei = state.outstandingIn entry
  ranges : ∀ entry ∈ state.ledger.entries, entry.seqs.1 ≤ entry.seqs.2
  disjoint : state.ledger.entries.Pairwise fun earlier later =>
    earlier.seqs.2 < later.seqs.1
  contiguous : state.ledger.entries.IsChain fun entry next =>
    next.seqs.1 = entry.seqs.2 + 1
  timestamps : state.ledger.entries.Pairwise fun earlier later =>
    earlier.at' ≤ later.at'

end LedgerState

def ledgerCalls : TransitionSystem LedgerState LedgerCall where
  init state := state = LedgerState.initial
  next := LedgerState.call

/-- What a refund of a reservation does to the entries: it never clips, and a
repeated or a late one does nothing. -/
structure LedgerState.RefundsOnce (state : LedgerState) (index : ℕ)
    (reservation : SpendEntry) : Prop where
  repeated : index ∈ state.released →
    (state.ledger.release reservation).entries = state.ledger.entries
  fits : reservation.seqs.1 ∉ state.ledger.refunded →
    ∀ stored ∈ state.ledger.entries,
      stored.contains reservation.seqs.1 = true →
      reservation.amount ≤ stored.amount
  pruned : index ∈ state.released →
    reservation.seqs.1 ∉ state.ledger.refunded →
    ∀ stored ∈ state.ledger.entries,
      ¬ stored.contains reservation.seqs.1 = true
  expired : ∀ stored ∈ state.ledger.entries,
    stored.contains reservation.seqs.1 = true →
    ∀ window now expired, state.call (.spent window now) = some expired →
    stored ∉ expired.ledger.entries →
    ∀ calls after, ledgerCalls.run expired calls = some after →
    after.reservations.length ≤ 2 ^ 64 → after.totalReserved < 2 ^ 256 →
    (after.ledger.release reservation).entries = after.ledger.entries

namespace LedgerState

variable {state after : LedgerState} {entry reservation : SpendEntry}
  {window now first index : ℕ}

/-! ## One call -/

/-- No cap, and no age which a read has to respect. -/
def callsOnly : SpendConfig := ⟨HoprBalance.zero, 0⟩

/-- What a call can do. -/
theorem call_cases {action : LedgerCall}
    (hcall : state.call action = some after) :
    (∃ amount now, action = .commit amount now ∧ state.clock ≤ now ∧
      after = state.reserved amount now) ∨
    (∃ index entry, action = .release index ∧
      state.reservations[index]? = some entry ∧
      after = state.refunded index entry) ∨
    (∃ window now, action = .spent window now ∧ state.clock ≤ now ∧
      after = state.read window now) := by
  cases action with
  | commit amount now =>
      simp only [call] at hcall
      split at hcall
      next hclock =>
        simp only [Option.some.injEq] at hcall
        exact Or.inl ⟨amount, now, rfl, hclock, hcall.symm⟩
      next => exact absurd hcall (by simp)
  | release index =>
      simp only [call] at hcall
      cases hentry : state.reservations[index]? with
      | none => simp [hentry] at hcall
      | some entry =>
          simp only [hentry, Option.some.injEq] at hcall
          exact Or.inr (Or.inl ⟨index, entry, rfl, hentry, hcall.symm⟩)
  | spent window now =>
      simp only [call] at hcall
      split at hcall
      next hclock =>
        simp only [Option.some.injEq] at hcall
        exact Or.inr (Or.inr ⟨window, now, rfl, hclock, hcall.symm⟩)
      next => exact absurd hcall (by simp)

/-- A call never shortens the history. -/
theorem Bounded.beforeCall {action : LedgerCall} (hbounded : after.Bounded)
    (hcall : state.call action = some after) : state.Bounded := by
  have hcount := hbounded.count
  have htotal := hbounded.total
  obtain ⟨amount, now, rfl, _, rfl⟩ | ⟨_, _, rfl, _, rfl⟩ |
    ⟨_, _, rfl, _, rfl⟩ := call_cases hcall
  · rw [reserved_length] at hcount
    rw [reserved_totalReserved] at htotal
    exact ⟨by omega, by omega⟩
  · exact ⟨hcount, htotal⟩
  · exact ⟨hcount, htotal⟩

theorem reservation_call {action : LedgerCall}
    (hentry : state.reservations[index]? = some entry)
    (hcall : state.call action = some after) :
    after.reservations[index]? = some entry := by
  obtain ⟨amount, now, rfl, _, rfl⟩ | ⟨_, _, rfl, _, rfl⟩ |
    ⟨_, _, rfl, _, rfl⟩ := call_cases hcall
  · rw [reserved_getElem? (List.getElem?_eq_some_iff.mp hentry).1]
    exact hentry
  · exact hentry
  · exact hentry

theorem Invariant.afterRead (hinv : state.Invariant callsOnly)
    (hbounded : state.Bounded) (window : ℕ) (hclock : state.clock ≤ now) :
    (state.read window now).Invariant callsOnly := by
  obtain ⟨first, hacc⟩ := hinv.accounted
  obtain ⟨start, _, _, hacc'⟩ := hacc.spent (Nat.zero_le window) hbounded
    hinv.ordered hinv.past hclock
  exact {
    accounted := ⟨start, hacc'⟩
    seq := hinv.seq
    numbered := hinv.numbered
    ordered := hinv.ordered
    past := fun i => le_trans (hinv.past i) hclock
    released := hinv.released
    marked := fun seq hseq => hinv.marked seq (spent_refunded_subset hseq)
    gate := fun _ _ hcap => absurd hcap (by decide) }

theorem Invariant.call {action : LedgerCall}
    (hinv : state.Invariant callsOnly) (hbounded : after.Bounded)
    (hcall : state.call action = some after) :
    after.Invariant callsOnly := by
  have hbefore := hbounded.beforeCall hcall
  obtain ⟨amount, now, rfl, hclock, rfl⟩ | ⟨index, entry, rfl, hentry, rfl⟩ |
    ⟨window, now, rfl, hclock, rfl⟩ := call_cases hcall
  · exact hinv.afterReserve hclock hbounded
  · exact hinv.afterRefund hbefore hentry
  · exact hinv.afterRead hbefore window hclock

/-- The live part of the history never grows back. -/
theorem AccountedFrom.call {action : LedgerCall}
    (hacc : state.AccountedFrom 0 first) (hinv : state.Invariant callsOnly)
    (hbounded : after.Bounded) (hcall : state.call action = some after) :
    ∃ later, first ≤ later ∧ after.AccountedFrom 0 later := by
  have hbefore := hbounded.beforeCall hcall
  obtain ⟨amount, now, rfl, hclock, rfl⟩ | ⟨index, entry, rfl, hentry, rfl⟩ |
    ⟨window, now, rfl, hclock, rfl⟩ := call_cases hcall
  · exact ⟨first, le_rfl, hacc.reserved hinv hclock hbounded⟩
  · exact ⟨first, le_rfl, hacc.refund hinv hbefore hentry⟩
  · obtain ⟨start, hstart, _, hacc'⟩ := hacc.spent (Nat.zero_le window)
      hbefore hinv.ordered hinv.past hclock
    exact ⟨start, hstart, hacc'⟩

/-! ## The entries -/

theorem Invariant.represents (hinv : state.Invariant callsOnly)
    (hbounded : state.Bounded) : state.Represents := by
  obtain ⟨first, hacc⟩ := hinv.accounted
  have hcount := hbounded.count
  exact {
    amounts := by
      intro entry hmem
      obtain ⟨lo, hi, hlo, hlt, hhi, hcov⟩ := hacc.tiles.mem_covers hmem
      rw [hcov.amount]
      unfold outstandingIn
      rw [← Finset.sum_filter]
      apply Finset.sum_congr _ fun _ _ => rfl
      ext i
      rw [Finset.mem_Ico, Finset.mem_filter, Finset.mem_range]
      by_cases hi' : i < state.reservations.length
      · have hnumber := hinv.numbered i _ (List.getElem?_eq_getElem hi')
        rw [List.getElem?_eq_getElem hi', Option.any_some, hnumber,
          hcov.contains_iff i hlt (by omega) (by omega)]
        simp [hi']
      · exact iff_of_false (by omega) (fun h => hi' h.1)
    ranges := by
      intro entry hmem
      obtain ⟨lo, hi, hlo, hlt, hhi, hcov⟩ := hacc.tiles.mem_covers hmem
      rw [hcov.seqs, UInt64.le_iff_toNat_le, toNat_ofNat_of_lt (by omega),
        toNat_ofNat_of_lt (by omega)]
      omega
    disjoint := by
      refine hacc.tiles.pairwise ?_
      intro lo hi lo' hi' left right hlt hle hlt' hstop hleft hright
      rw [hleft.seqs, hright.seqs, UInt64.lt_iff_toNat_lt,
        toNat_ofNat_of_lt (by omega), toNat_ofNat_of_lt (by omega)]
      omega
    contiguous := by
      refine hacc.tiles.isChain ?_
      intro lo middle hi left right hlt hlt' hstop hleft hright
      rw [hleft.seqs, hright.seqs]
      change UInt64.ofNat middle = UInt64.ofNat (middle - 1) + 1
      have hadd := UInt64.ofNat_add (middle - 1) 1
      rw [Nat.sub_add_cancel (by omega)] at hadd
      exact hadd
    timestamps := by
      refine hacc.tiles.pairwise ?_
      intro lo hi lo' hi' left right hlt hle hlt' hstop hleft hright
      rw [hleft.time, hright.time]
      exact hinv.ordered _ _ (by omega) (by omega) }

/-- A refund of a reservation which is no longer live finds no entry. -/
theorem AccountedFrom.not_contains (hacc : state.AccountedFrom window first)
    (hbounded : state.Bounded) (hindex : index < first) :
    ∀ stored ∈ state.ledger.entries,
      ¬ stored.contains (UInt64.ofNat index) = true := by
  intro stored hmem
  have hcount := hbounded.count
  obtain ⟨lo, hi, hlo, hlt, hhi, hcov⟩ := hacc.tiles.mem_covers hmem
  rw [hcov.contains_iff index hlt (by omega) (by omega)]
  omega

theorem AccountedFrom.release_expired
    (hacc : state.AccountedFrom window first)
    (hinv : state.Invariant callsOnly) (hbounded : state.Bounded)
    (hentry : state.reservations[index]? = some reservation)
    (hindex : index < first) :
    (state.ledger.release reservation).entries = state.ledger.entries := by
  unfold SpendLedger.release
  split
  next => rfl
  next =>
    exact refundFirst_eq_self hacc.tiles hbounded.count hindex
      (by rw [hinv.numbered index reservation hentry])

/-- The numbers which expired are forgotten, but they are also out of reach. -/
theorem AccountedFrom.lt_of_pruned
    (hacc : state.AccountedFrom window first)
    (hinv : state.Invariant callsOnly)
    (hentry : state.reservations[index]? = some reservation)
    (hreleased : index ∈ state.released)
    (hpruned : reservation.seqs.1 ∉ state.ledger.refunded) :
    index < first := by
  by_contra hlive
  rw [hinv.numbered index reservation hentry] at hpruned
  exact hpruned ((hacc.refunded index (by omega)
    (hinv.released index hreleased)).mpr hreleased)

/-- An entry which a read drops leaves none behind that holds its numbers. -/
theorem AccountedFrom.lt_of_dropped {start : ℕ} {stored : SpendEntry}
    (hinv : state.Invariant callsOnly) (hbounded : state.Bounded)
    (hacc : (state.read window now).AccountedFrom 0 start)
    (hmem : stored ∈ state.ledger.entries)
    (hdropped : stored ∉ (state.read window now).ledger.entries)
    (hindex : index < state.reservations.length)
    (hcontains : stored.contains (UInt64.ofNat index) = true) :
    index < start := by
  by_contra hlive
  have hcount := hbounded.count
  obtain ⟨lo, hi, kept, hkept, hlo, hhi, hstop, hcov⟩ :=
    hacc.tiles.exists_mem (by omega : start ≤ index) hindex
  have hstop' : hi ≤ state.reservations.length := hstop
  have hholds := (hcov.contains_iff index (by omega) (by omega)
    (by omega)).mpr ⟨hlo, hhi⟩
  obtain ⟨dropped, hsplit⟩ :=
    SpendLedger.dropExpired_suffix window now state.ledger.entries
  have hdisjoint := (hinv.represents hbounded).disjoint
  rw [← hsplit] at hmem hdisjoint
  rcases List.mem_append.mp hmem with hold | hnew
  · have hlt := (List.pairwise_append.mp hdisjoint).2.2 stored hold kept hkept
    simp only [SpendEntry.contains, Bool.and_eq_true,
      decide_eq_true_eq] at hcontains hholds
    rw [UInt64.lt_iff_toNat_lt] at hlt
    rw [UInt64.le_iff_toNat_le, UInt64.le_iff_toNat_le] at hcontains hholds
    omega
  · exact hdropped hnew

/-! ## Runs of calls -/

theorem invariant_of_calls (hreach : ledgerCalls.Reachable state) :
    state.Bounded → state.Invariant callsOnly := by
  refine @TransitionSystem.Reachable.invariant _ _ _
    (fun state => state.Bounded → state.Invariant callsOnly) _ hreach ?_ ?_
  · rintro start rfl _
    exact Invariant.initial callsOnly
  · intro before action after hbefore hcall hbounded
    exact (hbefore (hbounded.beforeCall hcall)).call hbounded hcall

/-- A run of calls keeps the reservations, and only drops live ones. -/
theorem accounted_of_run {calls : List LedgerCall}
    (hacc : state.AccountedFrom 0 first) (hinv : state.Invariant callsOnly)
    (hentry : state.reservations[index]? = some entry)
    (hrun : ledgerCalls.run state calls = some after)
    (hbounded : after.Bounded) :
    after.Invariant callsOnly ∧ after.reservations[index]? = some entry ∧
      ∃ later, first ≤ later ∧ after.AccountedFrom 0 later := by
  refine @TransitionSystem.run_invariant _ _ ledgerCalls
    (fun state => state.Bounded → state.Invariant callsOnly ∧
      state.reservations[index]? = some entry ∧
      ∃ later, first ≤ later ∧ state.AccountedFrom 0 later) ?_ _ _ calls
    (fun _ => ⟨hinv, hentry, first, le_rfl, hacc⟩) hrun hbounded
  intro before action after hbefore hcall hbounded
  obtain ⟨hinv, hentry, middle, hle, hacc⟩ :=
    hbefore (hbounded.beforeCall hcall)
  obtain ⟨later, hlater, hacc'⟩ := hacc.call hinv hbounded hcall
  exact ⟨hinv.call hbounded hcall, reservation_call hentry hcall, later,
    by omega, hacc'⟩

theorem Invariant.refundsOnce (hinv : state.Invariant callsOnly)
    (hbounded : state.Bounded)
    (hentry : state.reservations[index]? = some reservation) :
    state.RefundsOnce index reservation := by
  obtain ⟨first, hacc⟩ := hinv.accounted
  have hindex : index < state.reservations.length :=
    (List.getElem?_eq_some_iff.mp hentry).1
  have hnumber : reservation.seqs.1 = UInt64.ofNat index := by
    rw [hinv.numbered index reservation hentry]
  exact {
    repeated := by
      intro hreleased
      by_cases hmarked : reservation.seqs.1 ∈ state.ledger.refunded
      · unfold SpendLedger.release
        rw [if_pos hmarked]
      · exact hacc.release_expired hinv hbounded hentry
          (hacc.lt_of_pruned hinv hentry hreleased hmarked)
    fits := by
      intro hmarked stored hmem hcontains
      obtain ⟨lo, hi, hlo, hlt, hhi, hcov⟩ := hacc.tiles.mem_covers hmem
      have hcount := hbounded.count
      rw [hnumber, hcov.contains_iff index hlt (by omega) (by omega)]
        at hcontains
      have hreleased : index ∉ state.released := by
        rw [← hacc.refunded index (by omega) hindex, ← hnumber]
        exact hmarked
      have hamount : state.outstanding index = reservation.amount.wei := by
        unfold outstanding
        simp [hentry, hreleased]
      rw [HoprBalance.le_iff, hcov.amount, ← hamount]
      exact Finset.single_le_sum (fun i _ => Nat.zero_le _)
        (Finset.mem_Ico.mpr hcontains)
    pruned := by
      intro hreleased hmarked
      rw [hnumber]
      exact hacc.not_contains hbounded
        (hacc.lt_of_pruned hinv hentry hreleased hmarked)
    expired := by
      intro stored hmem hcontains window now expired hcall hdropped calls after
        hrun hcount htotal
      have hafter : after.Bounded := ⟨hcount, htotal⟩
      obtain ⟨_, _, h, _⟩ | ⟨_, _, h, _⟩ | ⟨_, _, h, hclock, rfl⟩ :=
        call_cases hcall
      all_goals cases h
      obtain ⟨start, _, _, hread⟩ := hacc.spent (Nat.zero_le window) hbounded
        hinv.ordered hinv.past hclock
      have hpast := AccountedFrom.lt_of_dropped hinv hbounded hread hmem
        hdropped hindex (hnumber ▸ hcontains)
      obtain ⟨hinv', hentry', later, hle, hacc'⟩ := accounted_of_run hread
        (hinv.afterRead hbounded window hclock) hentry hrun hafter
      exact hacc'.release_expired hinv' hafter hentry' (by omega) }

/-- Behind the gate the ledger sees nothing but such calls. -/
theorem calls_of_gated {cfg : SpendConfig}
    (hreach : (ledgerSystem cfg).Reachable state) :
    ∃ clock, clock ≤ state.clock ∧
      ledgerCalls.Reachable { state with clock := clock, gate := none } := by
  induction hreach with
  | init hinit =>
      cases hinit
      exact ⟨0, le_rfl, .init rfl⟩
  | @step before after action _ _ hnext ih =>
      obtain ⟨clock, hle, hcalls⟩ := ih
      obtain ⟨target, now, rfl, _, hclock, rfl⟩ |
        ⟨target, now, rfl, _, hclock, rfl⟩ | ⟨rfl, rfl⟩ |
        ⟨index, entry, rfl, hentry, rfl⟩ := next_cases hnext
      · by_cases hcap : cfg.maxSpendPerWindow.isZero = true
        · -- an absent limit is checked without a call
          refine ⟨clock, le_trans hle hclock, ?_⟩
          simpa only [spendGate, hcap, if_true] using hcalls
        · refine ⟨now, le_rfl, ?_⟩
          rw [spendGate_eq_of_limit before.ledger target now
            (Bool.not_eq_true _ ▸ hcap)]
          refine hcalls.run [.spent cfg.spendWindow now] ?_
          simp only [TransitionSystem.run, ledgerCalls, call,
            if_pos (le_trans hle hclock)]
          rfl
      · refine ⟨now, le_rfl, hcalls.run [.commit target now] ?_⟩
        simp only [TransitionSystem.run, ledgerCalls, call,
          if_pos (le_trans hle hclock)]
        rfl
      · exact ⟨clock, hle, hcalls⟩
      · refine ⟨clock, hle, hcalls.run [.release index] ?_⟩
        simp only [TransitionSystem.run, ledgerCalls, call, hentry]
        rfl

end LedgerState

/-- Up to `2 ^ 64` reservations whose total does not overflow, any sequence of
calls leaves entries which represent the history, and every reservation is
handed back at most once. -/
theorem spendLedger_represents {state : LedgerState}
    (hreach : ledgerCalls.Reachable state)
    (hcount : state.reservations.length ≤ 2 ^ 64)
    (htotal : state.totalReserved < 2 ^ 256) :
    state.Represents ∧
      ∀ index reservation, state.reservations[index]? = some reservation →
        state.RefundsOnce index reservation := by
  have hbounded : state.Bounded := ⟨hcount, htotal⟩
  have hinv := LedgerState.invariant_of_calls hreach hbounded
  exact ⟨hinv.represents hbounded,
    fun _ _ hentry => hinv.refundsOnce hbounded hentry⟩

/-- Two reservations of one and two wei, the first of which is handed back
twice and expires in between. -/
theorem spendLedger_represents_expired :
    ∃ state : LedgerState,
      ledgerCalls.run LedgerState.initial
        [.commit (HoprBalance.saturating 1) 0,
          .commit (HoprBalance.saturating 2) 3, .release 0, .spent 5 6,
          .release 0] = some state ∧
      state.ledger.entries.length = 1 ∧ state.Represents ∧
      ∀ index reservation, state.reservations[index]? = some reservation →
        state.RefundsOnce index reservation := by
  have hreach := TransitionSystem.Reachable.run
    (.init rfl : ledgerCalls.Reachable LedgerState.initial)
    [.commit (HoprBalance.saturating 1) 0,
      .commit (HoprBalance.saturating 2) 3, .release 0, .spent 5 6,
      .release 0] rfl
  exact ⟨_, rfl, by decide, spendLedger_represents hreach (by decide)
    (by decide)⟩

/-! ## Past the counter and past the largest amount -/

namespace LedgerState

variable {state : LedgerState} {index count : ℕ}
  {entry reservation : SpendEntry}

theorem sum_le_outstandingIn {indices : Finset ℕ}
    (hcontains : ∀ i ∈ indices, ∃ reservation,
      state.reservations[i]? = some reservation ∧
      entry.contains reservation.seqs.1 = true) :
    ∑ i ∈ indices, state.outstanding i ≤ state.outstandingIn entry := by
  unfold outstandingIn
  rw [← Finset.sum_filter]
  apply Finset.sum_le_sum_of_subset
  intro i hi
  obtain ⟨reservation, hentry, hholds⟩ := hcontains i hi
  rw [Finset.mem_filter, Finset.mem_range, hentry, Option.any_some]
  exact ⟨(List.getElem?_eq_some_iff.mp hentry).1, hholds⟩

/-- Two reservations of half the largest amount each, and empty ones. -/
def halfEntry (i : ℕ) : SpendEntry :=
  ⟨0, if i < 2 then HoprBalance.saturating (2 ^ 255) else HoprBalance.zero,
    (UInt64.ofNat i, UInt64.ofNat i)⟩

def afterCommits (count : ℕ) : LedgerState where
  ledger := ⟨(List.range count).map halfEntry, UInt64.ofNat count, ∅⟩
  clock := 0
  gate := none
  reservations := (List.range count).map halfEntry
  released := ∅

theorem afterCommits_commit :
    (afterCommits count).ledger.commit (halfEntry count).amount 0 =
      (halfEntry count,
        ⟨if spendLedgerCapacity < count + 1
            then SpendLedger.foldOldest ((List.range (count + 1)).map halfEntry)
            else (List.range (count + 1)).map halfEntry,
          UInt64.ofNat (count + 1), ∅⟩) := by
  have hentry : halfEntry count = ⟨0, (halfEntry count).amount,
      (UInt64.ofNat count, UInt64.ofNat count)⟩ := rfl
  simp [SpendLedger.commit, afterCommits, List.range_succ, ← hentry]

theorem reachable_afterCommits (hcount : count ≤ spendLedgerCapacity) :
    ledgerCalls.Reachable (afterCommits count) := by
  induction count with
  | zero => exact .init rfl
  | succ count ih =>
      refine (ih (by omega)).run [.commit (halfEntry count).amount 0] ?_
      have hfits : ¬ spendLedgerCapacity < count + 1 := by omega
      simp only [TransitionSystem.run, ledgerCalls, call, reserved,
        afterCommits_commit, if_neg hfits]
      simp [afterCommits, List.range_succ]

/-- The first fold adds the two large amounts up. -/
def afterFold : LedgerState :=
  (afterCommits spendLedgerCapacity).reserved
    (halfEntry spendLedgerCapacity).amount 0

theorem reachable_afterFold : ledgerCalls.Reachable afterFold :=
  (reachable_afterCommits le_rfl).run
    [.commit (halfEntry spendLedgerCapacity).amount 0] rfl

theorem afterFold_reservations :
    afterFold.reservations =
      (List.range (spendLedgerCapacity + 1)).map halfEntry := by
  change _ ++ [(SpendLedger.commit _ _ 0).1] = _
  rw [afterCommits_commit]
  simp [afterCommits, List.range_succ]

theorem mem_afterFold_entries :
    (⟨0, HoprBalance.saturating (2 ^ 256), (0, 1)⟩ : SpendEntry) ∈
      afterFold.ledger.entries := by
  change _ ∈ (SpendLedger.commit _ _ 0).2.entries
  rw [afterCommits_commit]
  simp only [if_pos (Nat.lt_succ_self spendLedgerCapacity)]
  rw [show spendLedgerCapacity + 1 = 4095 + 1 + 1 from rfl,
    List.range_succ_eq_map, List.range_succ_eq_map, List.map_cons,
    List.map_cons, List.map_cons, SpendLedger.foldOldest]
  apply List.mem_cons.mpr
  left
  decide

theorem afterFold_not_represents : ¬ afterFold.Represents := by
  intro hrepresents
  have hamount := hrepresents.amounts _ mem_afterFold_entries
  have hstored : ∀ i, i < 2 →
      afterFold.reservations[i]? = some (halfEntry i) := by
    intro i hi
    rw [afterFold_reservations, List.getElem?_map,
      List.getElem?_range (by unfold spendLedgerCapacity; omega)]
    rfl
  have hhalf : ∀ i, i < 2 → afterFold.outstanding i = 2 ^ 255 := by
    intro i hi
    have hreleased : i ∉ afterFold.released := Finset.notMem_empty i
    unfold outstanding
    simp only [hstored i hi, if_neg hreleased, halfEntry, if_pos hi]
    rfl
  have hle : ∑ i ∈ ({0, 1} : Finset ℕ), afterFold.outstanding i ≤
      afterFold.outstandingIn
        ⟨0, HoprBalance.saturating (2 ^ 256), (0, 1)⟩ := by
    apply sum_le_outstandingIn
    intro i hi
    have hi : i < 2 := by
      simp only [Finset.mem_insert, Finset.mem_singleton] at hi
      omega
    exact ⟨halfEntry i, hstored i hi, by interval_cases i <;> decide⟩
  rw [Finset.sum_pair (by decide), hhalf 0 (by decide), hhalf 1 (by decide),
    ← hamount] at hle
  exact absurd hle (by decide)

/-- The state after the counter has wrapped and its first number was handed
back. -/
def afterWrap (rounds clock : ℕ) : LedgerState where
  ledger := ⟨[clearedEntry (rounds + 1)], 1, {0}⟩
  clock := clock
  gate := none
  reservations :=
    (List.range (rounds + 1)).map roundEntry ++ [youngEntry (rounds + 1)]
  released := {0}

theorem afterWrap_not_represents (rounds clock : ℕ) :
    ¬ (afterWrap rounds clock).Represents := by
  intro hrepresents
  have hamount := hrepresents.amounts (clearedEntry (rounds + 1))
    (List.mem_singleton.mpr rfl)
  have hyoung : (afterWrap rounds clock).reservations[rounds + 1]? =
      some (youngEntry (rounds + 1)) := by
    unfold afterWrap
    rw [List.getElem?_append_right (by simp)]
    simp
  -- the young reservation is still committed, and its entry holds nothing
  have hle : ∑ i ∈ ({rounds + 1} : Finset ℕ),
        (afterWrap rounds clock).outstanding i ≤
      (afterWrap rounds clock).outstandingIn (clearedEntry (rounds + 1)) := by
    apply sum_le_outstandingIn
    intro i hi
    rw [Finset.mem_singleton.mp hi]
    exact ⟨youngEntry (rounds + 1), hyoung, rfl⟩
  have hreleased : rounds + 1 ∉ (afterWrap rounds clock).released := by
    simp [afterWrap]
  rw [← hamount, Finset.sum_singleton] at hle
  unfold outstanding at hle
  simp only [hyoung, if_neg hreleased] at hle
  have hone : (1 : ℕ) ≤ 0 := hle
  omega

/-- The entries do not represent the history when the counter has wrapped, nor
when folding adds up more than an amount can hold. -/
theorem represents_not_unbounded :
    (¬ ∀ state : LedgerState, ledgerCalls.Reachable state →
      state.totalReserved < 2 ^ 256 → state.Represents) ∧
    (¬ ∀ state : LedgerState, ledgerCalls.Reachable state →
      state.reservations.length ≤ 2 ^ 64 → state.Represents) := by
  constructor
  · intro hclaim
    obtain ⟨rounds, hwrap⟩ : ∃ rounds : ℕ, rounds + 1 = 2 ^ 64 :=
      ⟨2 ^ 64 - 1, by norm_num⟩
    obtain ⟨clock, _, hreach⟩ := calls_of_gated (reachable_afterWrap hwrap)
    refine afterWrap_not_represents rounds clock (hclaim _ hreach ?_)
    simp only [totalReserved, afterWrap, List.map_append, List.sum_append,
      List.map_map]
    exact lt_of_eq_of_lt (congrArg (· + 1) (sum_roundEntry rounds))
      (by norm_num)
  · intro hclaim
    refine afterFold_not_represents (hclaim _ reachable_afterFold ?_)
    rw [afterFold_reservations, List.length_map, List.length_range]
    decide

end LedgerState

end HoprStrategy.Pix
