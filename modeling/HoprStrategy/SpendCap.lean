import HoprStrategy.SpendLedgerWindow

/-!
# The rolling spend cap

The ledger entries account for a suffix of the reservation history; everything
before that suffix has aged out.  A deposit which passes the gate therefore
fits into the window, and it still does when it is reserved later.  The
reservation counter wraps, so this holds for the first `2 ^ 64` reservations;
beyond them a late refund can hit a younger reservation of the same number.
-/

namespace HoprStrategy.Pix

open Library

def ledgerSystem (cfg : SpendConfig) :
    TransitionSystem LedgerState LedgerAction where
  init state := state = LedgerState.initial
  next := LedgerState.next cfg

/-- The entries account for the reservations from `first` on, and all earlier
ones have aged out. -/
structure LedgerState.AccountedFrom (state : LedgerState)
    (window first : ℕ) : Prop where
  tiles : Tiles (AccountsFor state.outstanding state.committedAt) first
    state.ledger.entries state.reservations.length
  aged : ∀ i, i < first → state.committedAt i + window ≤ state.clock
  refunded : ∀ i, first ≤ i → i < state.reservations.length →
    (UInt64.ofNat i ∈ state.ledger.refunded ↔ i ∈ state.released)

structure LedgerState.Invariant (cfg : SpendConfig)
    (state : LedgerState) : Prop where
  accounted : ∃ first, state.AccountedFrom cfg.spendWindow first
  seq : state.ledger.seq = UInt64.ofNat state.reservations.length
  numbered : ∀ i entry, state.reservations[i]? = some entry →
    entry.seqs = (UInt64.ofNat i, UInt64.ofNat i)
  ordered : ∀ i j, i ≤ j → j < state.reservations.length →
    state.committedAt i ≤ state.committedAt j
  past : ∀ i, state.committedAt i ≤ state.clock
  released : ∀ i ∈ state.released, i < state.reservations.length
  marked : ∀ seq ∈ state.ledger.refunded,
    ∃ i, i < state.reservations.length ∧ seq = UInt64.ofNat i
  gate : ∀ target, state.gate = some target →
    cfg.maxSpendPerWindow.isZero = false →
    state.totalReserved + target.wei < 2 ^ 256 →
    state.committedInWindow cfg.spendWindow state.clock + target.wei ≤
      cfg.maxSpendPerWindow.wei

/-- The history is short enough for the counter not to have wrapped, and small
enough for the amounts not to saturate. -/
structure LedgerState.Bounded (state : LedgerState) : Prop where
  count : state.reservations.length ≤ 2 ^ 64
  total : state.totalReserved < 2 ^ 256

namespace LedgerState

variable {cfg : SpendConfig} {state after : LedgerState}
  {entry : SpendEntry} {window now later first index : ℕ}

/-! ## The history -/

theorem outstanding_le (index : ℕ) :
    state.outstanding index ≤
      (state.reservations[index]?.map fun entry => entry.amount.wei).getD 0 := by
  unfold outstanding
  cases state.reservations[index]? with
  | none => simp
  | some entry =>
      simp only [Option.map_some, Option.getD_some]
      split <;> omega

theorem sum_outstanding_le :
    ∑ i ∈ Finset.range state.reservations.length, state.outstanding i ≤
      state.totalReserved := by
  have hsum : ∀ reservations : List SpendEntry,
      ∑ i ∈ Finset.range reservations.length,
        (reservations[i]?.map fun entry => entry.amount.wei).getD 0 =
      (reservations.map fun entry => entry.amount.wei).sum := by
    intro reservations
    induction reservations with
    | nil => simp
    | cons entry rest ih =>
        rw [List.length_cons, Finset.sum_range_succ', List.map_cons,
          List.sum_cons]
        simp only [List.getElem?_cons_succ, List.getElem?_cons_zero,
          Option.map_some, Option.getD_some]
        rw [ih]
        omega
  unfold totalReserved
  rw [← hsum]
  exact Finset.sum_le_sum fun i _ => outstanding_le i

theorem sum_Ico_outstanding_le (state : LedgerState) (first : ℕ) :
    ∑ i ∈ Finset.Ico first state.reservations.length, state.outstanding i ≤
      state.totalReserved := by
  refine le_trans (Finset.sum_le_sum_of_subset ?_) sum_outstanding_le
  rw [Finset.range_eq_Ico]
  exact Finset.Ico_subset_Ico (Nat.zero_le _) le_rfl

/-- Time passing only takes reservations out of the window. -/
theorem committedInWindow_anti (hle : now ≤ later) :
    state.committedInWindow window later ≤
      state.committedInWindow window now := by
  unfold committedInWindow
  apply Finset.sum_le_sum
  intro i _
  split
  next hlater => rw [if_pos (by omega)]
  next => exact Nat.zero_le _

/-- Only reservations from `first` on can still be in the window. -/
theorem committedInWindow_le_sum (state : LedgerState) (first : ℕ)
    (haged : ∀ i, i < first → window ≤ now - state.committedAt i) :
    state.committedInWindow window now ≤
      ∑ i ∈ Finset.Ico first state.reservations.length,
        state.outstanding i := by
  unfold committedInWindow
  rw [← Finset.sum_filter]
  apply Finset.sum_le_sum_of_subset
  intro i hi
  rw [Finset.mem_filter, Finset.mem_range] at hi
  rw [Finset.mem_Ico]
  refine ⟨?_, hi.1⟩
  by_contra hlt
  have := haged i (by omega)
  omega

/-! ## Reading the window -/

/-- What `spent` returns and leaves behind, in terms of the history.  Asking
for a longer window does not let a reservation expire before its time. -/
theorem AccountedFrom.spent {asked : ℕ}
    (hacc : state.AccountedFrom window first) (hasked : window ≤ asked)
    (hbounded : state.Bounded)
    (hordered : ∀ i j, i ≤ j → j < state.reservations.length →
      state.committedAt i ≤ state.committedAt j)
    (hpast : ∀ i, state.committedAt i ≤ state.clock)
    (hclock : state.clock ≤ now) :
    ∃ start, first ≤ start ∧
      (state.ledger.spent asked now).1.wei =
        ∑ i ∈ Finset.Ico start state.reservations.length,
          state.outstanding i ∧
      AccountedFrom { state with
        ledger := (state.ledger.spent asked now).2
        clock := now } window start := by
  obtain ⟨start, hstart, htiles, haged⟩ :=
    tiles_dropExpired asked now hacc.tiles hordered
  have hvalue := htiles.sum_eq (fun entry => entry.amount.wei)
    fun _ _ _ hcov => hcov.amount
  refine ⟨start, hstart, ?_, ?_, ?_, ?_⟩
  · have hle := sum_Ico_outstanding_le state start
    have htotal := hbounded.total
    change (List.foldl _ HoprBalance.zero _).wei = _
    rw [foldl_add_wei _ _ (by rw [hvalue, HoprBalance.zero_wei]; omega),
      hvalue, HoprBalance.zero_wei, Nat.zero_add]
  · exact htiles
  · intro i hi
    have hpasti : state.committedAt i ≤ now := le_trans (hpast i) hclock
    change state.committedAt i + window ≤ now
    by_cases hfirst : i < first
    · exact le_trans (hacc.aged i hfirst) hclock
    · have := haged i (by omega) hi
      omega
  · intro i hlo hhi
    change UInt64.ofNat i ∈ (state.ledger.spent asked now).2.refunded ↔ _
    rw [← hacc.refunded i (by omega) hhi]
    simp only [SpendLedger.spent]
    split
    next => exact Iff.rfl
    next =>
      -- the prune bound is the first reservation of the oldest live entry
      cases htail : SpendLedger.dropExpired asked now
          state.ledger.entries with
      | nil =>
          rw [htail] at htiles
          cases htiles
          exact absurd hhi (by simpa using hlo)
      | cons oldest rest =>
          rw [htail] at htiles
          cases htiles with
          | cons hlt hcov hrest =>
              have hcount := hbounded.count
              have hseqle : oldest.seqs.1 ≤ UInt64.ofNat i := by
                have hi : i < 2 ^ 64 := lt_of_lt_of_le hhi hcount
                rw [hcov.seqs, UInt64.le_iff_toNat_le,
                  toNat_ofNat_of_lt (by omega), toNat_ofNat_of_lt hi]
                exact hlo
              simp [hseqle]

theorem spent_refunded_subset {ledger : SpendLedger} :
    (ledger.spent window now).2.refunded ⊆ ledger.refunded := by
  simp only [SpendLedger.spent]
  split
  · exact Finset.Subset.refl _
  · split
    · exact Finset.filter_subset _ _
    · exact Finset.empty_subset _

/-! ## One step -/

/-- What a step of the run can do. -/
theorem next_cases {action : LedgerAction}
    (hnext : state.next cfg action = some after) :
    (∃ target now, action = .check target now ∧ state.gate = none ∧
      state.clock ≤ now ∧
      after = { state with
        ledger := (spendGate cfg state.ledger target now).2
        clock := now
        gate := if (spendGate cfg state.ledger target now).1
          then some target else none }) ∨
    (∃ target now, action = .reserve now ∧ state.gate = some target ∧
      state.clock ≤ now ∧
      after = { state with
        ledger := (state.ledger.commit target now).2
        clock := now
        gate := none
        reservations := state.reservations ++
          [(state.ledger.commit target now).1] }) ∨
    (action = .abandon ∧ after = { state with gate := none }) ∨
    (∃ index entry, action = .refund index ∧
      state.reservations[index]? = some entry ∧
      after = { state with
        ledger := state.ledger.release entry
        released := insert index state.released }) := by
  cases action with
  | check target now =>
      simp only [next] at hnext
      split at hnext
      next hgate =>
        simp only [Option.some.injEq] at hnext
        exact Or.inl ⟨target, now, rfl, hgate.1, hgate.2, hnext.symm⟩
      next => exact absurd hnext (by simp)
  | reserve now =>
      simp only [next] at hnext
      cases hgate : state.gate with
      | none => simp [hgate] at hnext
      | some target =>
          simp only [hgate] at hnext
          split at hnext
          next hclock =>
            simp only [Option.some.injEq] at hnext
            exact Or.inr (Or.inl ⟨target, now, rfl, rfl, hclock, hnext.symm⟩)
          next => exact absurd hnext (by simp)
  | abandon =>
      simp only [next, Option.some.injEq] at hnext
      exact Or.inr (Or.inr (Or.inl ⟨rfl, hnext.symm⟩))
  | refund index =>
      simp only [next] at hnext
      cases hentry : state.reservations[index]? with
      | none => simp [hentry] at hnext
      | some entry =>
          simp only [hentry, Option.some.injEq] at hnext
          exact Or.inr (Or.inr (Or.inr ⟨index, entry, rfl, hentry,
            hnext.symm⟩))

/-- A step never shortens the history. -/
theorem Bounded.before {action : LedgerAction} (hbounded : after.Bounded)
    (hnext : state.next cfg action = some after) : state.Bounded := by
  have hcount := hbounded.count
  have htotal := hbounded.total
  obtain ⟨_, _, rfl, _, _, rfl⟩ | ⟨_, _, rfl, _, _, rfl⟩ | ⟨rfl, rfl⟩ |
    ⟨_, _, rfl, _, rfl⟩ := next_cases hnext
  · exact ⟨hcount, htotal⟩
  · simp only [List.length_append, List.length_singleton] at hcount
    simp only [totalReserved, List.map_append, List.sum_append] at htotal
    exact ⟨by omega, by unfold totalReserved; omega⟩
  · exact ⟨hcount, htotal⟩
  · exact ⟨hcount, htotal⟩

/-! ### The check -/

theorem Invariant.afterCheck (hinv : state.Invariant cfg)
    (hbounded : state.Bounded) (target : HoprBalance)
    (hclock : state.clock ≤ now) :
    Invariant cfg { state with
      ledger := (spendGate cfg state.ledger target now).2
      clock := now
      gate := if (spendGate cfg state.ledger target now).1
        then some target else none } := by
  obtain ⟨first, hacc⟩ := hinv.accounted
  have hpast : ∀ i, state.committedAt i ≤ now :=
    fun i => le_trans (hinv.past i) hclock
  by_cases hcap : cfg.maxSpendPerWindow.isZero = true
  · -- without a limit the window is not even read
    simp only [spendGate, hcap, if_true]
    exact {
      accounted := ⟨first, hacc.tiles,
        fun i hi => le_trans (hacc.aged i hi) hclock, hacc.refunded⟩
      seq := hinv.seq
      numbered := hinv.numbered
      ordered := hinv.ordered
      past := hpast
      released := hinv.released
      marked := hinv.marked
      gate := fun _ _ hzero => by simp [hcap] at hzero }
  · obtain ⟨start, _, hspent, hacc'⟩ :=
      hacc.spent le_rfl hbounded hinv.ordered hinv.past hclock
    have hgate := spendGate_eq_of_limit state.ledger target now
      (Bool.not_eq_true _ ▸ hcap)
    rw [hgate]
    exact {
      accounted := ⟨start, hacc'.tiles, hacc'.aged, hacc'.refunded⟩
      seq := hinv.seq
      numbered := hinv.numbered
      ordered := hinv.ordered
      past := hpast
      released := hinv.released
      marked := fun seq hseq => hinv.marked seq (spent_refunded_subset hseq)
      gate := by
        intro admitted hadmitted _ htotal
        have hle : state.committedInWindow cfg.spendWindow now ≤ _ :=
          committedInWindow_le_sum state start fun i hi => by
            have : state.committedAt i + cfg.spendWindow ≤ now :=
              hacc'.aged i hi
            omega
        have hsum := sum_Ico_outstanding_le state start
        by_cases hover : cfg.maxSpendPerWindow <
            (state.ledger.spent cfg.spendWindow now).1 + target
        · simp [hover] at hadmitted
        · simp only [hover, decide_false, Bool.not_false, if_true,
            Option.some.injEq] at hadmitted
          subst hadmitted
          change state.totalReserved + target.wei < 2 ^ 256 at htotal
          change state.committedInWindow cfg.spendWindow now + _ ≤ _
          rw [HoprBalance.lt_iff, HoprBalance.add_wei_of_lt (by omega)]
            at hover
          omega }

/-! ### The reservation -/

section Reserve

variable {target : HoprBalance}

/-- The history after a reservation. -/
def reserved (state : LedgerState) (target : HoprBalance) (now : ℕ) :
    LedgerState :=
  { state with
    ledger := (state.ledger.commit target now).2
    clock := now
    gate := none
    reservations := state.reservations ++
      [(state.ledger.commit target now).1] }

theorem reserved_getElem? (hindex : index < state.reservations.length) :
    (state.reserved target now).reservations[index]? =
      state.reservations[index]? :=
  List.getElem?_append_left hindex

theorem reserved_getElem?_length :
    (state.reserved target now).reservations[state.reservations.length]? =
      some (state.ledger.commit target now).1 := by
  unfold reserved
  simp

theorem reserved_length :
    (state.reserved target now).reservations.length =
      state.reservations.length + 1 := by
  simp [reserved]

theorem reserved_outstanding (hindex : index < state.reservations.length) :
    (state.reserved target now).outstanding index =
      state.outstanding index := by
  unfold outstanding
  rw [reserved_getElem? hindex]
  rfl

theorem reserved_committedAt (hindex : index < state.reservations.length) :
    (state.reserved target now).committedAt index =
      state.committedAt index := by
  unfold committedAt
  rw [reserved_getElem? hindex]

theorem reserved_outstanding_length
    (hreleased : ∀ i ∈ state.released, i < state.reservations.length) :
    (state.reserved target now).outstanding state.reservations.length =
      target.wei := by
  have hnot : state.reservations.length ∉ (state.reserved target now).released :=
    fun hmem => lt_irrefl _ (hreleased _ hmem)
  unfold outstanding
  rw [reserved_getElem?_length]
  simp only [if_neg hnot]
  rfl

theorem reserved_committedAt_length :
    (state.reserved target now).committedAt state.reservations.length =
      now := by
  unfold committedAt
  rw [reserved_getElem?_length]
  rfl

theorem reserved_committedInWindow_le
    (hreleased : ∀ i ∈ state.released, i < state.reservations.length) :
    (state.reserved target now).committedInWindow window now ≤
      state.committedInWindow window now + target.wei := by
  unfold committedInWindow
  rw [reserved_length, Finset.sum_range_succ,
    reserved_outstanding_length hreleased]
  apply Nat.add_le_add
  · apply le_of_eq
    apply Finset.sum_congr rfl
    intro i hi
    rw [Finset.mem_range] at hi
    rw [reserved_outstanding hi, reserved_committedAt hi]
  · split
    · exact le_rfl
    · exact Nat.zero_le _

theorem reserved_totalReserved :
    (state.reserved target now).totalReserved =
      state.totalReserved + target.wei := by
  simp [totalReserved, reserved, SpendLedger.commit]

/-- The entries with the new reservation appended, before any folding. -/
theorem AccountedFrom.snoc (hacc : state.AccountedFrom window first)
    (hinv : state.Invariant cfg) (target : HoprBalance) (now : ℕ) :
    Tiles (AccountsFor (state.reserved target now).outstanding
        (state.reserved target now).committedAt) first
      (state.ledger.entries ++ [(state.ledger.commit target now).1])
      (state.reservations.length + 1) := by
  refine Tiles.snoc (hacc.tiles.congr ?_) (Nat.lt_succ_self _) ?_
  · intro lo hi element _ hlt hhi hcov
    refine hcov.congr hlt (fun i _ h => ?_) (fun i _ h => ?_)
    · exact (reserved_outstanding (by omega)).symm
    · exact (reserved_committedAt (by omega)).symm
  · refine ⟨?_, ?_, ?_⟩
    · simp [SpendLedger.commit, hinv.seq]
    · rw [Nat.add_sub_cancel, reserved_committedAt_length]
      rfl
    · rw [Nat.Ico_succ_singleton, Finset.sum_singleton,
        reserved_outstanding_length hinv.released]
      rfl

theorem AccountedFrom.reserved (hacc : state.AccountedFrom window first)
    (hinv : state.Invariant cfg) (hclock : state.clock ≤ now)
    (hbounded : (state.reserved target now).Bounded) :
    (state.reserved target now).AccountedFrom window first := by
  have hcount := hbounded.count
  have hfirst := hacc.tiles.le
  rw [reserved_length] at hcount
  have hsnoc := hacc.snoc hinv target now
  refine ⟨?_, ?_, ?_⟩
  · rw [reserved_length]
    unfold LedgerState.reserved SpendLedger.commit
    simp only
    split
    next hfull =>
      refine tiles_foldOldest hsnoc ?_ hcount ?_
      · unfold spendLedgerCapacity at hfull
        omega
      · have hle := sum_Ico_outstanding_le
          (state.reserved target now) first
        rw [reserved_length] at hle
        exact lt_of_le_of_lt hle hbounded.total
    next => exact hsnoc
  · intro i hi
    rw [reserved_committedAt (by omega)]
    exact le_trans (hacc.aged i hi) hclock
  · intro i hlo hhi
    rw [reserved_length] at hhi
    by_cases hlast : i < state.reservations.length
    · exact hacc.refunded i hlo hlast
    · -- the new reservation is neither marked as refunded nor released
      have hi : i = state.reservations.length := by omega
      subst hi
      refine iff_of_false ?_ ?_
      · intro hmem
        obtain ⟨j, hj, hseq⟩ := hinv.marked _ hmem
        rw [UInt64.ofNat_eq_iff_mod_eq_toNat, toNat_ofNat_of_lt (by omega),
          Nat.mod_eq_of_lt (by omega)] at hseq
        omega
      · intro hmem
        exact lt_irrefl _ (hinv.released _ hmem)

theorem Invariant.afterReserve (hinv : state.Invariant cfg)
    (hclock : state.clock ≤ now)
    (hbounded : (state.reserved target now).Bounded) :
    Invariant cfg (state.reserved target now) := by
  obtain ⟨first, hacc⟩ := hinv.accounted
  have hlength : (state.reserved target now).reservations.length =
      state.reservations.length + 1 := reserved_length
  exact {
    accounted := ⟨first, hacc.reserved hinv hclock hbounded⟩
    seq := by
      rw [hlength, UInt64.ofNat_add]
      change state.ledger.seq + 1 = _
      rw [hinv.seq]
      rfl
    numbered := by
      intro i entry hentry
      by_cases hi : i < state.reservations.length
      · rw [reserved_getElem? hi] at hentry
        exact hinv.numbered i entry hentry
      · have hlast : i < (state.reserved target now).reservations.length :=
          (List.getElem?_eq_some_iff.mp hentry).1
        have hi : i = state.reservations.length := by omega
        subst hi
        rw [reserved_getElem?_length] at hentry
        cases hentry
        simp [SpendLedger.commit, hinv.seq]
    ordered := by
      intro i j hij hj
      rw [hlength] at hj
      by_cases hlast : j < state.reservations.length
      · rw [reserved_committedAt (by omega), reserved_committedAt hlast]
        exact hinv.ordered i j hij hlast
      · have hj : j = state.reservations.length := by omega
        subst hj
        rw [reserved_committedAt_length]
        by_cases hi : i < state.reservations.length
        · rw [reserved_committedAt hi]
          exact le_trans (hinv.past i) hclock
        · have hi : i = state.reservations.length := by omega
          rw [hi, reserved_committedAt_length]
    past := by
      intro i
      change _ ≤ now
      by_cases hi : i < state.reservations.length
      · rw [reserved_committedAt hi]
        exact le_trans (hinv.past i) hclock
      · by_cases hlast : i = state.reservations.length
        · rw [hlast, reserved_committedAt_length]
        · unfold committedAt
          rw [List.getElem?_eq_none (by omega)]
          exact Nat.zero_le _
    released := by
      intro i hi
      have := hinv.released i hi
      omega
    marked := by
      intro seq hseq
      obtain ⟨i, hi, rfl⟩ := hinv.marked seq hseq
      exact ⟨i, by omega, rfl⟩
    gate := by
      intro _ hgate
      cases hgate }

end Reserve

/-! ### The refund -/

/-- The history after a refund. -/
def refunded (state : LedgerState) (index : ℕ) (entry : SpendEntry) :
    LedgerState :=
  { state with
    ledger := state.ledger.release entry
    released := insert index state.released }

theorem refunded_outstanding :
    (state.refunded index entry).outstanding =
      Function.update state.outstanding index 0 := by
  funext i
  by_cases hi : i = index
  · subst hi
    rw [Function.update_self]
    unfold outstanding refunded
    cases state.reservations[i]? with
    | none => rfl
    | some stored => simp
  · rw [Function.update_of_ne hi]
    unfold outstanding refunded
    simp [hi]

theorem refunded_committedAt :
    (state.refunded index entry).committedAt = state.committedAt := rfl

theorem refunded_committedInWindow_le :
    (state.refunded index entry).committedInWindow window now ≤
      state.committedInWindow window now := by
  unfold committedInWindow
  apply Finset.sum_le_sum
  intro i _
  rw [refunded_committedAt, refunded_outstanding]
  split
  · by_cases hi : i = index
    · rw [hi, Function.update_self]
      exact Nat.zero_le _
    · rw [Function.update_of_ne hi]
  · exact le_rfl

theorem mem_release_refunded {ledger : SpendLedger} {seq : UInt64} :
    seq ∈ (ledger.release entry).refunded ↔
      seq = entry.seqs.1 ∨ seq ∈ ledger.refunded := by
  unfold SpendLedger.release
  split
  next hmem =>
    constructor
    · exact Or.inr
    · rintro (rfl | h)
      · exact hmem
      · exact h
  next => exact Finset.mem_insert

theorem AccountedFrom.refund (hacc : state.AccountedFrom window first)
    (hinv : state.Invariant cfg) (hbounded : state.Bounded)
    (hentry : state.reservations[index]? = some entry) :
    (state.refunded index entry).AccountedFrom window first := by
  have hcount := hbounded.count
  have hindex : index < state.reservations.length :=
    (List.getElem?_eq_some_iff.mp hentry).1
  have hseq : entry.seqs.1 = UInt64.ofNat index := by
    rw [hinv.numbered index entry hentry]
  refine ⟨?_, hacc.aged, ?_⟩
  · rw [refunded_outstanding, refunded_committedAt]
    change Tiles _ _ (state.ledger.release entry).entries _
    unfold SpendLedger.release
    split
    next hmem =>
      -- a repeated refund changes nothing, a late one only what has aged out
      refine hacc.tiles.congr fun lo hi element hlo hlt hhi hcov => ?_
      refine hcov.congr hlt (fun i hlo' hhi' => ?_) fun _ _ _ => rfl
      by_cases hi : i = index
      · rw [hi, Function.update_self]
        rw [hseq] at hmem
        have hreleased := (hacc.refunded index (by omega) hindex).mp hmem
        unfold outstanding
        simp [hentry, hreleased]
      · rw [Function.update_of_ne hi]
    next hmem =>
      by_cases hlive : first ≤ index
      · refine tiles_refundFirst hacc.tiles hcount hlive hindex hseq ?_
        have hreleased : index ∉ state.released := by
          rw [← hacc.refunded index hlive hindex, ← hseq]
          exact hmem
        unfold outstanding
        simp [hentry, hreleased]
      · change Tiles _ _ (SpendLedger.refundFirst entry _) _
        rw [refundFirst_eq_self hacc.tiles hcount (by omega) hseq]
        refine hacc.tiles.congr fun lo hi element hlo hlt hhi hcov => ?_
        refine hcov.congr hlt (fun i hlo' hhi' => ?_) fun _ _ _ => rfl
        rw [Function.update_of_ne (by omega)]
  · intro i hlo hhi
    change UInt64.ofNat i ∈ (state.ledger.release entry).refunded ↔
      i ∈ insert index state.released
    rw [mem_release_refunded, Finset.mem_insert, hacc.refunded i hlo hhi, hseq,
      UInt64.ofNat_eq_iff_mod_eq_toNat, toNat_ofNat_of_lt (by omega),
      Nat.mod_eq_of_lt (by
        have : i < state.reservations.length := hhi
        omega)]

theorem Invariant.afterRefund (hinv : state.Invariant cfg)
    (hbounded : state.Bounded)
    (hentry : state.reservations[index]? = some entry) :
    Invariant cfg (state.refunded index entry) := by
  obtain ⟨first, hacc⟩ := hinv.accounted
  have hindex : index < state.reservations.length :=
    (List.getElem?_eq_some_iff.mp hentry).1
  exact {
    accounted := ⟨first, hacc.refund hinv hbounded hentry⟩
    seq := by
      change (state.ledger.release entry).seq =
        UInt64.ofNat state.reservations.length
      rw [← hinv.seq]
      unfold SpendLedger.release
      split <;> rfl
    numbered := hinv.numbered
    ordered := hinv.ordered
    past := hinv.past
    released := by
      intro i hi
      obtain rfl | hi := Finset.mem_insert.mp hi
      · exact hindex
      · exact hinv.released i hi
    marked := by
      intro seq hseq
      obtain rfl | hseq := mem_release_refunded.mp hseq
      · exact ⟨index, hindex, by rw [hinv.numbered index entry hentry]⟩
      · exact hinv.marked seq hseq
    gate := by
      intro target hgate hcap htotal
      have := hinv.gate target hgate hcap htotal
      calc (state.refunded index entry).committedInWindow cfg.spendWindow
            state.clock + target.wei
          ≤ state.committedInWindow cfg.spendWindow state.clock +
              target.wei :=
            Nat.add_le_add_right refunded_committedInWindow_le _
        _ ≤ cfg.maxSpendPerWindow.wei := this }

/-! ## Runs -/

theorem Invariant.initial (cfg : SpendConfig) :
    Invariant cfg LedgerState.initial where
  accounted := ⟨0, .nil _, fun _ hi => absurd hi (Nat.not_lt_zero _),
    fun _ _ hi => absurd hi (Nat.not_lt_zero _)⟩
  seq := rfl
  numbered := by
    intro i entry hentry
    simp [LedgerState.initial] at hentry
  ordered := fun _ _ _ hj => absurd hj (Nat.not_lt_zero _)
  past := fun _ => by simp [committedAt, LedgerState.initial]
  released := fun _ hi => absurd hi (Finset.notMem_empty _)
  marked := fun _ hi => absurd hi (Finset.notMem_empty _)
  gate := by
    intro target hgate
    cases hgate

theorem Invariant.next {action : LedgerAction} (hinv : state.Invariant cfg)
    (hbounded : after.Bounded)
    (hnext : state.next cfg action = some after) :
    after.Invariant cfg := by
  have hbefore := hbounded.before hnext
  obtain ⟨target, now, rfl, _, hclock, rfl⟩ | ⟨target, now, rfl, _, hclock, rfl⟩ |
    ⟨rfl, rfl⟩ | ⟨index, entry, rfl, hentry, rfl⟩ := next_cases hnext
  · exact hinv.afterCheck hbefore target hclock
  · exact hinv.afterReserve hclock hbounded
  · obtain ⟨first, hacc⟩ := hinv.accounted
    exact {
      accounted := ⟨first, hacc.tiles, hacc.aged, hacc.refunded⟩
      seq := hinv.seq
      numbered := hinv.numbered
      ordered := hinv.ordered
      past := hinv.past
      released := hinv.released
      marked := hinv.marked
      gate := by
        intro _ hgate
        cases hgate }
  · exact hinv.afterRefund hbefore hentry

theorem invariant_of_reachable
    (hreach : (ledgerSystem cfg).Reachable state) :
    state.Bounded → state.Invariant cfg := by
  refine @TransitionSystem.Reachable.invariant _ _ _
    (fun state => state.Bounded → state.Invariant cfg) _ hreach ?_ ?_
  · rintro start rfl _
    exact Invariant.initial cfg
  · intro before action after hbefore hnext hbounded
    exact (hbefore (hbounded.before hnext)).next hbounded hnext

/-- The window read never misses a commitment. -/
theorem Invariant.committedInWindow_le_spent (hinv : state.Invariant cfg)
    (hbounded : state.Bounded) (hclock : state.clock ≤ now) :
    state.committedInWindow cfg.spendWindow now ≤
      (state.ledger.spent cfg.spendWindow now).1.wei := by
  obtain ⟨first, hacc⟩ := hinv.accounted
  obtain ⟨start, _, hspent, hacc'⟩ :=
    hacc.spent le_rfl hbounded hinv.ordered hinv.past hclock
  rw [hspent]
  apply committedInWindow_le_sum
  intro i hi
  have : state.committedAt i + cfg.spendWindow ≤ now := hacc'.aged i hi
  omega

/-- A reservation which passed the gate keeps the window within the cap. -/
theorem Invariant.reserve_le_cap (hinv : state.Invariant cfg)
    (hcap : cfg.maxSpendPerWindow.isZero = false) (hbounded : after.Bounded)
    (hnext : state.next cfg (.reserve now) = some after) :
    after.committedInWindow cfg.spendWindow now ≤
      cfg.maxSpendPerWindow.wei := by
  obtain ⟨_, _, h, _⟩ | ⟨target, now', h, hgate, hclock, rfl⟩ | ⟨h, _⟩ |
    ⟨_, _, h, _⟩ := next_cases hnext
  all_goals cases h
  have htotal : state.totalReserved + target.wei < 2 ^ 256 := by
    rw [← reserved_totalReserved]
    exact hbounded.total
  calc (state.reserved target now).committedInWindow cfg.spendWindow now
      ≤ state.committedInWindow cfg.spendWindow now + target.wei :=
        reserved_committedInWindow_le hinv.released
    _ ≤ state.committedInWindow cfg.spendWindow state.clock + target.wei :=
        Nat.add_le_add_right (committedInWindow_anti hclock) _
    _ ≤ cfg.maxSpendPerWindow.wei := hinv.gate target hgate hcap htotal

end LedgerState

/-- Up to `2 ^ 64` reservations whose total does not overflow, every accepted
reservation leaves the window within the cap, and reading the window never
under-counts what is still committed in it. -/
theorem rollingCap (cfg : SpendConfig) :
    (∀ before after now, (ledgerSystem cfg).Reachable before →
      before.next cfg (.reserve now) = some after →
      cfg.maxSpendPerWindow.isZero = false →
      after.reservations.length ≤ 2 ^ 64 → after.totalReserved < 2 ^ 256 →
      after.committedInWindow cfg.spendWindow now ≤
        cfg.maxSpendPerWindow.wei) ∧
    (∀ state now, (ledgerSystem cfg).Reachable state → state.clock ≤ now →
      state.reservations.length ≤ 2 ^ 64 → state.totalReserved < 2 ^ 256 →
      state.committedInWindow cfg.spendWindow now ≤
        (state.ledger.spent cfg.spendWindow now).1.wei) := by
  refine ⟨?_, ?_⟩
  · intro before after now hreach hnext hcap hcount htotal
    have hbounded : after.Bounded := ⟨hcount, htotal⟩
    have hinv := LedgerState.invariant_of_reachable hreach
      (hbounded.before hnext)
    exact hinv.reserve_le_cap hcap hbounded hnext
  · intro state now hreach hclock hcount htotal
    have hbounded : state.Bounded := ⟨hcount, htotal⟩
    have hinv := LedgerState.invariant_of_reachable hreach hbounded
    exact hinv.committedInWindow_le_spent hbounded hclock

/-- A limit of ten over a window of ten. -/
def tenLimit : SpendConfig := ⟨HoprBalance.saturating 10, 10⟩

/-- Four and then six are reserved, which leaves no room for one more.  The six
are handed back, twice, and three are reserved; at 12 the four have expired and
seven fit. -/
def refundedSpends : List LedgerAction :=
  [.check (HoprBalance.saturating 4) 0, .reserve 0,
    .check (HoprBalance.saturating 6) 3, .reserve 3,
    .check (HoprBalance.saturating 1) 5, .refund 1, .refund 1,
    .check (HoprBalance.saturating 3) 8, .reserve 8,
    .check (HoprBalance.saturating 7) 12]

/-- The state after `refundedSpends`. -/
def sevenAdmitted : LedgerState where
  ledger := ⟨[⟨3, HoprBalance.zero, (1, 1)⟩,
    ⟨8, HoprBalance.saturating 3, (2, 2)⟩], 3, {1}⟩
  clock := 12
  gate := some (HoprBalance.saturating 7)
  reservations := [⟨0, HoprBalance.saturating 4, (0, 0)⟩,
    ⟨3, HoprBalance.saturating 6, (1, 1)⟩,
    ⟨8, HoprBalance.saturating 3, (2, 2)⟩]
  released := {1}

/-- The reservation of the seven fills the window. -/
theorem rollingCap_sevenAdmitted :
    ∃ after : LedgerState,
      sevenAdmitted.next tenLimit (.reserve 12) = some after ∧
      after.committedInWindow 10 12 ≤ 10 ∧
      sevenAdmitted.committedInWindow 10 12 ≤
        (sevenAdmitted.ledger.spent 10 12).1.wei := by
  have hreach : (ledgerSystem tenLimit).Reachable sevenAdmitted :=
    TransitionSystem.Reachable.run (.init rfl) refundedSpends (by decide)
  refine ⟨_, rfl, ?_, ?_⟩
  · exact (rollingCap tenLimit).1 sevenAdmitted _ 12 hreach rfl (by decide)
      (by decide) (by decide)
  · exact (rollingCap tenLimit).2 sevenAdmitted 12 hreach (by decide)
      (by decide) (by decide)

/-! ## Past the counter -/

/-- A limit of one over a window of one. -/
def unitLimit : SpendConfig := ⟨HoprBalance.saturating 1, 1⟩

namespace LedgerState

/-- The reservations of the run below: one unit first, then nothing once in
every window. -/
def roundEntry (i : ℕ) : SpendEntry :=
  ⟨i, if i = 0 then HoprBalance.saturating 1 else HoprBalance.zero,
    (UInt64.ofNat i, UInt64.ofNat i)⟩

def afterRounds (rounds : ℕ) : LedgerState where
  ledger := ⟨[roundEntry rounds], UInt64.ofNat rounds + 1, ∅⟩
  clock := rounds
  gate := none
  reservations := (List.range (rounds + 1)).map roundEntry
  released := ∅

theorem sum_roundEntry (rounds : ℕ) :
    ((List.range (rounds + 1)).map fun i => (roundEntry i).amount.wei).sum =
      1 := by
  induction rounds with
  | zero => rfl
  | succ rounds ih =>
      rw [List.range_succ, List.map_append, List.sum_append, ih]
      rfl

/-- In every window the old entry has expired before the next one is made. -/
theorem reachable_afterRounds (rounds : ℕ) :
    (ledgerSystem unitLimit).Reachable (afterRounds rounds) := by
  induction rounds with
  | zero =>
      refine TransitionSystem.Reachable.run (.init rfl)
        [.check (HoprBalance.saturating 1) 0, .reserve 0] ?_
      decide
  | succ rounds ih =>
      refine ih.run
        [.check HoprBalance.zero (rounds + 1), .reserve (rounds + 1)] ?_
      have hspent : SpendLedger.spent ⟨[roundEntry rounds],
          UInt64.ofNat rounds + 1, ∅⟩ 1 (rounds + 1) =
          (HoprBalance.zero, ⟨[], UInt64.ofNat rounds + 1, ∅⟩) := by
        simp [SpendLedger.spent, SpendLedger.dropExpired, roundEntry]
      have hgate : spendGate unitLimit ⟨[roundEntry rounds],
          UInt64.ofNat rounds + 1, ∅⟩ HoprBalance.zero (rounds + 1) =
          (true, ⟨[], UInt64.ofNat rounds + 1, ∅⟩) := by
        rw [spendGate_eq_of_limit _ _ _ (by decide)]
        change (!decide (_ < (SpendLedger.spent _ 1 _).1 + _),
          (SpendLedger.spent _ 1 _).2) = _
        rw [hspent]
        rfl
      have hentry : (SpendLedger.commit ⟨[], UInt64.ofNat rounds + 1, ∅⟩
          HoprBalance.zero (rounds + 1)) =
          (roundEntry (rounds + 1),
            ⟨[roundEntry (rounds + 1)], UInt64.ofNat (rounds + 1) + 1, ∅⟩) := by
        simp [SpendLedger.commit, roundEntry, spendLedgerCapacity]
      simp [TransitionSystem.run, ledgerSystem, next, afterRounds, hgate,
        hentry, List.range_succ]

/-- The one unit which takes number zero again. -/
def youngEntry (now : ℕ) : SpendEntry :=
  ⟨now, HoprBalance.saturating 1, (0, 0)⟩

/-- The same after the refund of the first reservation. -/
def clearedEntry (now : ℕ) : SpendEntry :=
  ⟨now, HoprBalance.zero, (0, 0)⟩

theorem gate_expired (rounds : ℕ) :
    spendGate unitLimit ⟨[roundEntry rounds], 0, ∅⟩
      (HoprBalance.saturating 1) (rounds + 1) = (true, ⟨[], 0, ∅⟩) := by
  have hspent : SpendLedger.spent ⟨[roundEntry rounds], 0, ∅⟩
      unitLimit.spendWindow (rounds + 1) =
      (HoprBalance.zero, ⟨[], 0, ∅⟩) := by
    simp [SpendLedger.spent, SpendLedger.dropExpired, roundEntry, unitLimit]
  rw [spendGate_eq_of_limit _ _ _ (by decide), hspent]
  decide

theorem gate_cleared (now : ℕ) :
    spendGate unitLimit ⟨[clearedEntry now], 1, {0}⟩
      (HoprBalance.saturating 1) now =
      (true, ⟨[clearedEntry now], 1, {0}⟩) := by
  have hspent : SpendLedger.spent ⟨[clearedEntry now], 1, {0}⟩
      unitLimit.spendWindow now =
      (HoprBalance.zero, ⟨[clearedEntry now], 1, {0}⟩) := by
    simp [SpendLedger.spent, SpendLedger.dropExpired, clearedEntry, unitLimit]
    decide
  have hfits : ¬ unitLimit.maxSpendPerWindow <
      HoprBalance.zero + HoprBalance.saturating 1 := by decide
  rw [spendGate_eq_of_limit _ _ _ (by decide), hspent]
  simp [hfits]

/-- When the counter has wrapped, the late refund of the first reservation
clears the entry of the one which took its number. -/
theorem reachable_afterWrap {rounds : ℕ} (hwrap : rounds + 1 = 2 ^ 64) :
    (ledgerSystem unitLimit).Reachable
      ⟨⟨[clearedEntry (rounds + 1)], 1, {0}⟩, rounds + 1,
        some (HoprBalance.saturating 1),
        (List.range (rounds + 1)).map roundEntry ++ [youngEntry (rounds + 1)],
        {0}⟩ := by
  have hseq : UInt64.ofNat rounds + 1 = 0 := by
    have h := UInt64.ofNat_add rounds 1
    rw [hwrap] at h
    exact h.symm
  have hrelease : SpendLedger.release ⟨[youngEntry (rounds + 1)], 1, ∅⟩
      (roundEntry 0) = ⟨[clearedEntry (rounds + 1)], 1, {0}⟩ := by
    simp [SpendLedger.release, SpendLedger.refundFirst, SpendEntry.contains,
      roundEntry, youngEntry, clearedEntry]
    decide
  refine (reachable_afterRounds rounds).run
    [.check (HoprBalance.saturating 1) (rounds + 1),
      .reserve (rounds + 1), .refund 0,
      .check (HoprBalance.saturating 1) (rounds + 1)] ?_
  have hcommit : SpendLedger.commit ⟨[], 0, ∅⟩ (HoprBalance.saturating 1)
      (rounds + 1) = (youngEntry (rounds + 1),
        ⟨[youngEntry (rounds + 1)], 1, ∅⟩) := by
    simp [SpendLedger.commit, spendLedgerCapacity, youngEntry]
  simp [TransitionSystem.run, ledgerSystem, next, afterRounds, hseq,
    gate_expired, hcommit, hrelease, gate_cleared]

/-- Without a bound on the number of reservations the cap does not hold. -/
theorem rollingCap_not_unbounded :
    ¬ ∀ (cfg : SpendConfig) (before after : LedgerState) (now : ℕ),
      (ledgerSystem cfg).Reachable before →
      before.next cfg (.reserve now) = some after →
      cfg.maxSpendPerWindow.isZero = false →
      after.totalReserved < 2 ^ 256 →
      after.committedInWindow cfg.spendWindow now ≤
        cfg.maxSpendPerWindow.wei := by
  intro hclaim
  obtain ⟨rounds, hwrap⟩ : ∃ rounds : ℕ, rounds + 1 = 2 ^ 64 :=
    ⟨2 ^ 64 - 1, by norm_num⟩
  let history := (List.range (rounds + 1)).map roundEntry
  let secondEntry : SpendEntry :=
    ⟨rounds + 1, HoprBalance.saturating 1, (1, 1)⟩
  let after : LedgerState :=
    ⟨⟨[clearedEntry (rounds + 1), secondEntry], 2, {0}⟩, rounds + 1, none,
      history ++ [youngEntry (rounds + 1)] ++ [secondEntry], {0}⟩
  have hnext := hclaim unitLimit _ after (rounds + 1)
    (reachable_afterWrap hwrap) (by
      simp [next, SpendLedger.commit, spendLedgerCapacity, after, secondEntry,
        history])
    (by decide)
  have htotal : after.totalReserved = 3 := by
    simp only [after, totalReserved, history, List.map_append, List.sum_append,
      List.map_map]
    exact congrArg (· + 1 + 1) (sum_roundEntry rounds)
  have hle := hnext (by rw [htotal]; norm_num)
  have hlength : history.length = rounds + 1 := by simp [history]
  have hyoung : after.reservations[rounds + 1]? =
      some (youngEntry (rounds + 1)) := by
    simp only [after, List.append_assoc]
    rw [List.getElem?_append_right hlength.le, hlength, Nat.sub_self]
    rfl
  have hsecond : after.reservations[rounds + 2]? = some secondEntry := by
    simp only [after, List.append_assoc]
    rw [List.getElem?_append_right (by omega), hlength, Nat.add_sub_add_left]
    rfl
  have hreleased : after.released = {0} := rfl
  have htwo : 2 ≤ after.committedInWindow 1 (rounds + 1) := by
    have hpair : ({rounds + 1, rounds + 2} : Finset ℕ) ⊆
        Finset.range after.reservations.length := by
      intro i hi
      simp only [Finset.mem_insert, Finset.mem_singleton] at hi
      simp only [after, List.length_append, hlength, List.length_singleton,
        Finset.mem_range]
      omega
    unfold committedInWindow
    refine le_trans ?_ (Finset.sum_le_sum_of_subset hpair)
    rw [Finset.sum_pair (by omega)]
    simp only [outstanding, committedAt, hyoung, hsecond, hreleased,
      youngEntry, secondEntry, Finset.mem_singleton, Nat.sub_self,
      Nat.zero_lt_one, if_true]
    rw [if_neg (by omega), if_neg (by omega)]
    decide
  exact absurd (le_trans htwo hle) (by decide)

end LedgerState

end HoprStrategy.Pix
