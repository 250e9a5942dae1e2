import HoprStrategy.Library.Tiling
import HoprStrategy.Library.TransitionSystem
import HoprStrategy.SpendLedger
import Mathlib.Tactic

/-!
# What the ledger entries account for

The entries tile the live part of the reservation history: each one carries
the range of the reservations folded into it, the time of the newest of them,
and the sum of what those reservations still commit.  Expiry drops a prefix of
the tiling, folding merges its first two tiles, a reservation extends it by one
tile and a refund lowers the one tile which holds it.
-/

namespace HoprStrategy.Pix

open Library

/-- `entry` is the account of the reservations `first, ..., stop - 1`. -/
structure AccountsFor (weight time : ℕ → ℕ) (first stop : ℕ)
    (entry : SpendEntry) : Prop where
  seqs : entry.seqs = (UInt64.ofNat first, UInt64.ofNat (stop - 1))
  time : entry.at' = time (stop - 1)
  amount : entry.amount.wei = ∑ i ∈ Finset.Ico first stop, weight i

variable {weight weight' time time' : ℕ → ℕ} {first stop : ℕ}
  {entries : List SpendEntry}

theorem toNat_ofNat_of_lt {n : ℕ} (h : n < 2 ^ 64) :
    (UInt64.ofNat n).toNat = n := by
  simpa using Nat.mod_eq_of_lt h

theorem AccountsFor.contains_iff {entry : SpendEntry} (index : ℕ)
    (haccounts : AccountsFor weight time first stop entry)
    (hlt : first < stop) (hstop : stop ≤ 2 ^ 64) (hindex : index < 2 ^ 64) :
    entry.contains (UInt64.ofNat index) = true ↔
      first ≤ index ∧ index < stop := by
  simp only [SpendEntry.contains, haccounts.seqs, Bool.and_eq_true,
    decide_eq_true_eq, UInt64.le_iff_toNat_le]
  rw [toNat_ofNat_of_lt (by omega : first < 2 ^ 64),
    toNat_ofNat_of_lt hindex, toNat_ofNat_of_lt (by omega : stop - 1 < 2 ^ 64)]
  omega

theorem AccountsFor.congr {entry : SpendEntry}
    (haccounts : AccountsFor weight time first stop entry)
    (hlt : first < stop)
    (hweight : ∀ i, first ≤ i → i < stop → weight i = weight' i)
    (htime : ∀ i, first ≤ i → i < stop → time i = time' i) :
    AccountsFor weight' time' first stop entry where
  seqs := haccounts.seqs
  time := by rw [haccounts.time, htime _ (by omega) (by omega)]
  amount := by
    rw [haccounts.amount]
    apply Finset.sum_congr rfl
    intro i hi
    rw [Finset.mem_Ico] at hi
    exact hweight i hi.1 hi.2

/-! ## Expiry -/

theorem SpendLedger.dropExpired_suffix (window now : ℕ)
    (entries : List SpendEntry) :
    SpendLedger.dropExpired window now entries <:+ entries := by
  induction entries with
  | nil => exact List.suffix_rfl
  | cons entry rest ih =>
      unfold SpendLedger.dropExpired
      split
      next => exact List.suffix_rfl
      next => exact ih.trans (List.suffix_cons entry rest)

/-- Expiry keeps a tiling of a suffix, and everything before that suffix has
aged out. -/
theorem tiles_dropExpired (window now : ℕ)
    (htiles : Tiles (AccountsFor weight time) first entries stop)
    (hmono : ∀ i j, i ≤ j → j < stop → time i ≤ time j) :
    ∃ start, first ≤ start ∧
      Tiles (AccountsFor weight time) start
        (SpendLedger.dropExpired window now entries) stop ∧
      ∀ i, first ≤ i → i < start → window ≤ now - time i := by
  induction htiles with
  | nil stop =>
      exact ⟨stop, le_rfl, .nil stop, fun i hlo hhi => by omega⟩
  | @cons first middle stop entry rest hlt hcovers hrest ih =>
      unfold SpendLedger.dropExpired
      split
      next => exact ⟨first, le_rfl, .cons hlt hcovers hrest,
        fun i hlo hhi => by omega⟩
      next hexpired =>
        obtain ⟨start, hstart, hsuffix, haged⟩ := ih hmono
        refine ⟨start, by omega, hsuffix, ?_⟩
        intro i hlo hhi
        by_cases hi : i < middle
        · -- the entry carries the time of its newest reservation
          have hle : time i ≤ time (middle - 1) :=
            hmono i (middle - 1) (by omega) (by have := hrest.le; omega)
          rw [hcovers.time] at hexpired
          omega
        · exact haged i (by omega) hhi

theorem foldl_add_wei (entries : List SpendEntry) (start : HoprBalance)
    (hlt : start.wei + (entries.map fun entry => entry.amount.wei).sum <
      2 ^ 256) :
    (entries.foldl (fun total entry => total + entry.amount) start).wei =
      start.wei + (entries.map fun entry => entry.amount.wei).sum := by
  induction entries generalizing start with
  | nil => simp
  | cons entry rest ih =>
      simp only [List.map_cons, List.sum_cons] at hlt
      have hadd : (start + entry.amount).wei = start.wei + entry.amount.wei :=
        HoprBalance.add_wei_of_lt (by omega)
      rw [List.foldl_cons, ih _ (by rw [hadd]; omega), hadd]
      simp only [List.map_cons, List.sum_cons]
      omega

/-! ## Folding -/

theorem tiles_foldOldest
    (htiles : Tiles (AccountsFor weight time) first entries stop)
    (hlength : 2 ≤ entries.length) (hstop : stop ≤ 2 ^ 64)
    (hsum : ∑ i ∈ Finset.Ico first stop, weight i < 2 ^ 256) :
    Tiles (AccountsFor weight time) first
      (SpendLedger.foldOldest entries) stop := by
  match entries, htiles, hlength with
  | oldest :: next :: rest, htiles, _ =>
      refine htiles.merge ?_
      intro middle after holdest hnext hlt hlt' hle
      have hsplit := Finset.sum_Ico_consecutive weight hlt.le hlt'.le
      have hpart : ∑ i ∈ Finset.Ico first after, weight i ≤
          ∑ i ∈ Finset.Ico first stop, weight i :=
        Finset.sum_le_sum_of_subset
          (Finset.Ico_subset_Ico le_rfl hle)
      have hmin : min (UInt64.ofNat first) (UInt64.ofNat middle) =
          UInt64.ofNat first := by
        refine if_pos ?_
        rw [UInt64.le_iff_toNat_le, toNat_ofNat_of_lt (by omega),
          toNat_ofNat_of_lt (by omega)]
        omega
      have hmax : max (UInt64.ofNat (middle - 1)) (UInt64.ofNat (after - 1)) =
          UInt64.ofNat (after - 1) := by
        refine if_pos ?_
        rw [UInt64.le_iff_toNat_le, toNat_ofNat_of_lt (by omega),
          toNat_ofNat_of_lt (by omega)]
        omega
      exact {
        seqs := by simp only [holdest.seqs, hnext.seqs, hmin, hmax]
        time := hnext.time
        amount := by
          have hadd : (next.amount + oldest.amount).wei =
              next.amount.wei + oldest.amount.wei :=
            HoprBalance.add_wei_of_lt (by
              rw [holdest.amount, hnext.amount]
              omega)
          change (next.amount + oldest.amount).wei = _
          rw [hadd, holdest.amount, hnext.amount]
          omega }

/-! ## Refunds -/

/-- A refund of a live reservation zeroes its weight. -/
theorem tiles_refundFirst {index : ℕ} {entry : SpendEntry}
    (htiles : Tiles (AccountsFor weight time) first entries stop)
    (hstop : stop ≤ 2 ^ 64) (hlo : first ≤ index) (hhi : index < stop)
    (hseq : entry.seqs.1 = UInt64.ofNat index)
    (hamount : entry.amount.wei = weight index) :
    Tiles (AccountsFor (Function.update weight index 0) time) first
      (SpendLedger.refundFirst entry entries) stop := by
  induction htiles with
  | nil => omega
  | @cons first middle stop stored rest hlt hcovers hrest ih =>
      have hcontains := hcovers.contains_iff index hlt
        (le_trans hrest.le hstop) (by omega)
      unfold SpendLedger.refundFirst
      rw [hseq]
      by_cases hin : index < middle
      · rw [if_pos (hcontains.mpr ⟨hlo, hin⟩)]
        have hmem : index ∈ Finset.Ico first middle :=
          Finset.mem_Ico.mpr ⟨hlo, hin⟩
        have herase := Finset.sum_erase_add _ weight hmem
        refine .cons hlt ⟨hcovers.seqs, hcovers.time, ?_⟩ ?_
        · change stored.amount.wei - entry.amount.wei = _
          rw [Finset.sum_update_of_mem hmem, hcovers.amount, hamount,
            Finset.sdiff_singleton_eq_erase]
          omega
        · refine hrest.congr fun lo hi element hle _ _ hcov => ?_
          refine ⟨hcov.seqs, hcov.time, ?_⟩
          rw [hcov.amount]
          apply Finset.sum_congr rfl
          intro i hi
          rw [Finset.mem_Ico] at hi
          rw [Function.update_of_ne (by omega)]
      · have hnot : ¬ stored.contains (UInt64.ofNat index) = true := by
          rw [hcontains]
          omega
        rw [if_neg hnot]
        refine .cons hlt ?_ (ih hstop (by omega) hhi)
        refine hcovers.congr hlt ?_ fun _ _ _ => rfl
        intro i _ hi
        rw [Function.update_of_ne (by omega)]

/-- A refund of a reservation before the live part finds no entry. -/
theorem refundFirst_eq_self {index : ℕ} {entry : SpendEntry}
    (htiles : Tiles (AccountsFor weight time) first entries stop)
    (hstop : stop ≤ 2 ^ 64) (hlo : index < first)
    (hseq : entry.seqs.1 = UInt64.ofNat index) :
    SpendLedger.refundFirst entry entries = entries := by
  induction htiles with
  | nil => rfl
  | @cons first middle stop stored rest hlt hcovers hrest ih =>
      have hnot : ¬ stored.contains (UInt64.ofNat index) = true := by
        rw [hcovers.contains_iff index hlt (le_trans hrest.le hstop)
          (by have := hrest.le; omega)]
        omega
      unfold SpendLedger.refundFirst
      rw [hseq, if_neg hnot, ih hstop (by omega)]

end HoprStrategy.Pix
