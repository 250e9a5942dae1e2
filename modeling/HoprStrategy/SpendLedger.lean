import HoprStrategy.HoprBalance
import Mathlib.Algebra.BigOperators.Intervals

/-!
# The rolling spend ledger

Entries are kept oldest first.  They expire by age, and once there are more
than `spendLedgerCapacity` of them the oldest is folded into its successor.
Times are nanoseconds on one monotone clock.
-/

namespace HoprStrategy.Pix

def spendLedgerCapacity : ℕ := 4096

/-- One reservation, or several folded ones: `seqs` is the inclusive range of
the reservations which the entry accounts for. -/
structure SpendEntry where
  at' : ℕ
  amount : HoprBalance
  seqs : UInt64 × UInt64
  deriving DecidableEq

def SpendEntry.contains (entry : SpendEntry) (seq : UInt64) : Bool :=
  entry.seqs.1 ≤ seq && seq ≤ entry.seqs.2

structure SpendLedger where
  entries : List SpendEntry
  seq : UInt64
  refunded : Finset UInt64
  deriving DecidableEq

namespace SpendLedger

/-- `SpendLedger::default`. -/
def empty : SpendLedger := ⟨[], 0, ∅⟩

/-- The expiry loop: pops from the front while the front has aged out. -/
def dropExpired (window now : ℕ) : List SpendEntry → List SpendEntry
  | [] => []
  | entry :: rest =>
      if now - entry.at' < window then entry :: rest
      else dropExpired window now rest

/-- `spent`: drops what has aged out of `window` and returns what is still
committed. -/
def spent (ledger : SpendLedger) (window now : ℕ) :
    HoprBalance × SpendLedger :=
  let entries := dropExpired window now ledger.entries
  let refunded :=
    if ledger.refunded = ∅ then ledger.refunded
    else
      match entries with
      | oldest :: _ => ledger.refunded.filter fun seq => oldest.seqs.1 ≤ seq
      | [] => ∅
  (entries.foldl (fun total entry => total + entry.amount) HoprBalance.zero,
    { ledger with entries := entries, refunded := refunded })

/-- The oldest entry folded into its successor, which keeps its own time. -/
def foldOldest : List SpendEntry → List SpendEntry
  | oldest :: next :: rest =>
      { next with
        amount := next.amount + oldest.amount
        seqs := (min oldest.seqs.1 next.seqs.1,
          max oldest.seqs.2 next.seqs.2) } :: rest
  | [_] => []
  | [] => []

/-- `commit`: records `amount` against the window, and returns the
reservation. -/
def commit (ledger : SpendLedger) (amount : HoprBalance) (now : ℕ) :
    SpendEntry × SpendLedger :=
  let entry : SpendEntry := ⟨now, amount, (ledger.seq, ledger.seq)⟩
  let entries := ledger.entries ++ [entry]
  (entry,
    { ledger with
      seq := ledger.seq + 1
      entries :=
        if spendLedgerCapacity < entries.length then foldOldest entries
        else entries })

/-- Subtracts a refund from the first entry whose range holds it. -/
def refundFirst (entry : SpendEntry) : List SpendEntry → List SpendEntry
  | [] => []
  | stored :: rest =>
      if stored.contains entry.seqs.1 then
        { stored with amount := stored.amount - entry.amount } :: rest
      else stored :: refundFirst entry rest

/-- `release`: hands a reserved amount back to the window, at most once. -/
def release (ledger : SpendLedger) (entry : SpendEntry) : SpendLedger :=
  if entry.seqs.1 ∈ ledger.refunded then ledger
  else
    { ledger with
      refunded := insert entry.seqs.1 ledger.refunded
      entries := refundFirst entry ledger.entries }

end SpendLedger

/-- What the spend limit of the strategy's configuration consists of. -/
structure SpendConfig where
  maxSpendPerWindow : HoprBalance
  spendWindow : ℕ
  deriving DecidableEq

/-- The rolling-limit gate in front of a deposit: whether `target` may be
spent, and the ledger after the read.  A zero limit disables the check. -/
def spendGate (cfg : SpendConfig) (ledger : SpendLedger)
    (target : HoprBalance) (now : ℕ) : Bool × SpendLedger :=
  if cfg.maxSpendPerWindow.isZero then (true, ledger)
  else
    let (spent, ledger) := ledger.spent cfg.spendWindow now
    if cfg.maxSpendPerWindow < spent + target then (false, ledger)
    else (true, ledger)

theorem spendGate_eq_of_limit {cfg : SpendConfig} (ledger : SpendLedger)
    (target : HoprBalance) (now : ℕ)
    (hcap : cfg.maxSpendPerWindow.isZero = false) :
    spendGate cfg ledger target now =
      (!decide (cfg.maxSpendPerWindow <
        (ledger.spent cfg.spendWindow now).1 + target),
        (ledger.spent cfg.spendWindow now).2) := by
  unfold spendGate
  rw [if_neg (by simp [hcap])]
  by_cases hover : cfg.maxSpendPerWindow <
      (ledger.spent cfg.spendWindow now).1 + target
  · simp [hover]
  · simp [hover]

/-! ## Runs of reservations, refunds and expiries -/

/-- The ledger together with the history it answers for.  `gate` is the amount
which has passed the spend check and has not been committed yet; `released`
holds the indices of the reservations which have been handed back. -/
structure LedgerState where
  ledger : SpendLedger
  clock : ℕ
  gate : Option HoprBalance
  reservations : List SpendEntry
  released : Finset ℕ
  deriving DecidableEq

inductive LedgerAction where
  /-- An event reads the window at `now` and compares `target` with it. -/
  | check (target : HoprBalance) (now : ℕ)
  /-- The event cleared the later gates and reserves its amount. -/
  | reserve (now : ℕ)
  /-- The event was refused by a later gate. -/
  | abandon
  /-- A flush hands the reservation with this index back. -/
  | refund (index : ℕ)
  deriving DecidableEq

namespace LedgerState

def initial : LedgerState := ⟨SpendLedger.empty, 0, none, [], ∅⟩

def next (cfg : SpendConfig) (state : LedgerState) :
    LedgerAction → Option LedgerState
  | .check target now =>
      if state.gate = none ∧ state.clock ≤ now then
        let (admitted, ledger) := spendGate cfg state.ledger target now
        some { state with
          ledger := ledger
          clock := now
          gate := if admitted then some target else none }
      else none
  | .reserve now =>
      match state.gate with
      | none => none
      | some target =>
          if state.clock ≤ now then
            let (entry, ledger) := state.ledger.commit target now
            some { state with
              ledger := ledger
              clock := now
              gate := none
              reservations := state.reservations ++ [entry] }
          else none
  | .abandon => some { state with gate := none }
  | .refund index =>
      match state.reservations[index]? with
      | none => none
      | some entry =>
          some { state with
            ledger := state.ledger.release entry
            released := insert index state.released }

/-- What reservation `index` still commits: nothing once it was released. -/
def outstanding (state : LedgerState) (index : ℕ) : ℕ :=
  match state.reservations[index]? with
  | some entry => if index ∈ state.released then 0 else entry.amount.wei
  | none => 0

/-- When reservation `index` was committed. -/
def committedAt (state : LedgerState) (index : ℕ) : ℕ :=
  match state.reservations[index]? with
  | some entry => entry.at'
  | none => 0

/-- The not-released reservations committed within the last `window`. -/
def committedInWindow (state : LedgerState) (window now : ℕ) : ℕ :=
  ∑ index ∈ Finset.range state.reservations.length,
    if now - state.committedAt index < window
      then state.outstanding index else 0

/-- Everything ever reserved, refunds not deducted. -/
def totalReserved (state : LedgerState) : ℕ :=
  (state.reservations.map fun entry => entry.amount.wei).sum

end LedgerState

end HoprStrategy.Pix
