import Mathlib.Tactic

/-!
# Leases of in-flight actions

A slot is held by one holder until its deadline; an expired slot reads as free.
Every attempt takes a number off a counter, also one which is refused, and a
holder is the 64-bit word of its number.  All clocks are one clock here.
-/

namespace HoprStrategy.ChannelLifecycle

structure Lease where
  holder : UInt64
  heldUntil : ℕ
  deriving DecidableEq

/-- The slots of one kind of action, one entry a key. -/
structure ActionLeases (Key : Type) where
  leases : List (Key × Lease)
  nextHolder : ℕ

namespace ActionLeases

variable {Key : Type} [DecidableEq Key]

def empty : ActionLeases Key := ⟨[], 0⟩

def isHeld (leases : ActionLeases Key) (now : ℕ) (key : Key) : Bool :=
  leases.leases.any fun entry => entry.1 = key ∧ now < entry.2.heldUntil

def heldCount (leases : ActionLeases Key) (now : ℕ) : ℕ :=
  leases.leases.countP fun entry => now < entry.2.heldUntil

def live (leases : ActionLeases Key) (now : ℕ) : List (Key × Lease) :=
  leases.leases.filter fun entry => now < entry.2.heldUntil

/-- Takes the slot for at most `timeout`, unless it is held. -/
def acquire (leases : ActionLeases Key) (now timeout : ℕ) (key : Key) :
    Option UInt64 × ActionLeases Key :=
  let holder := UInt64.ofNat leases.nextHolder
  if leases.isHeld now key then
    (none, { leases with nextHolder := leases.nextHolder + 1 })
  else
    (some holder,
      { leases := (key, ⟨holder, now + timeout⟩) ::
          leases.leases.filter (·.1 ≠ key)
        nextHolder := leases.nextHolder + 1 })

/-- Releases the slot if `holder` still holds it. -/
def releaseOwned (leases : ActionLeases Key) (key : Key) (holder : UInt64) :
    ActionLeases Key :=
  { leases with
    leases := leases.leases.filter fun entry =>
      ¬ (entry.1 = key ∧ entry.2.holder = holder) }

/-- Releases the slot whoever holds it. -/
def release (leases : ActionLeases Key) (key : Key) : ActionLeases Key :=
  { leases with leases := leases.leases.filter (·.1 ≠ key) }

def sweep (leases : ActionLeases Key) (now : ℕ) : ActionLeases Key :=
  { leases with
    leases := leases.leases.filter fun entry => now < entry.2.heldUntil }

variable {leases after : ActionLeases Key} {now later : ℕ} {key other : Key}

theorem isHeld_iff : leases.isHeld now key = true ↔
    ∃ lease, (key, lease) ∈ leases.leases ∧ now < lease.heldUntil := by
  unfold isHeld
  rw [List.any_eq_true]
  constructor
  · rintro ⟨⟨found, lease⟩, hmem, hheld⟩
    simp only [decide_eq_true_eq] at hheld
    exact ⟨lease, hheld.1 ▸ hmem, hheld.2⟩
  · rintro ⟨lease, hmem, hlt⟩
    exact ⟨(key, lease), hmem, by simpa using hlt⟩

/-- What is held later is held now. -/
theorem isHeld_mono (hle : now ≤ later)
    (hheld : leases.isHeld later key = true) :
    leases.isHeld now key = true := by
  rcases isHeld_iff.mp hheld with ⟨lease, hmem, hlt⟩
  exact isHeld_iff.mpr ⟨lease, hmem, by omega⟩

theorem isHeld_of_subset (hsubset : after.leases ⊆ leases.leases)
    (hheld : after.isHeld now key = true) : leases.isHeld now key = true := by
  rcases isHeld_iff.mp hheld with ⟨lease, hmem, hlt⟩
  exact isHeld_iff.mpr ⟨lease, hsubset hmem, hlt⟩

theorem releaseOwned_subset (holder : UInt64) :
    (leases.releaseOwned key holder).leases ⊆ leases.leases := by
  intro entry hmem
  exact (List.mem_filter.mp hmem).1

theorem release_subset : (leases.release key).leases ⊆ leases.leases := by
  intro entry hmem
  exact (List.mem_filter.mp hmem).1

omit [DecidableEq Key] in
theorem sweep_subset : (leases.sweep now).leases ⊆ leases.leases := by
  intro entry hmem
  exact (List.mem_filter.mp hmem).1

/-- Only the slot which is taken becomes held. -/
theorem isHeld_of_acquire {timeout : ℕ}
    (hheld : (leases.acquire now timeout key).2.isHeld later other = true) :
    leases.isHeld later other = true ∨ other = key := by
  unfold acquire at hheld
  split at hheld
  · exact Or.inl hheld
  · rcases isHeld_iff.mp hheld with ⟨lease, hmem, hlt⟩
    rcases List.mem_cons.mp hmem with hnew | hold
    · exact Or.inr (congrArg Prod.fst hnew)
    · exact Or.inl (isHeld_iff.mpr
        ⟨lease, (List.mem_filter.mp hold).1, hlt⟩)

/-- A refused slot stays as it was. -/
theorem acquire_of_held {timeout : ℕ} (hheld : leases.isHeld now key = true) :
    leases.acquire now timeout key =
      (none, { leases with nextHolder := leases.nextHolder + 1 }) :=
  if_pos hheld

theorem acquire_of_free {timeout : ℕ} (hfree : leases.isHeld now key = false) :
    leases.acquire now timeout key =
      (some (UInt64.ofNat leases.nextHolder),
        { leases := (key, ⟨UInt64.ofNat leases.nextHolder, now + timeout⟩) ::
            leases.leases.filter (·.1 ≠ key)
          nextHolder := leases.nextHolder + 1 }) := by
  unfold acquire
  rw [if_neg (by simp [hfree])]

/-- A slot which is taken for some time counts as one more. -/
theorem heldCount_acquire {timeout : ℕ} (hpos : 0 < timeout)
    (hfree : leases.isHeld now key = false) :
    (leases.acquire now timeout key).2.heldCount now =
      leases.heldCount now + 1 := by
  rw [acquire_of_free hfree]
  unfold heldCount
  rw [List.countP_cons_of_pos (by simpa using hpos), List.countP_filter]
  congr 1
  apply List.countP_congr
  intro entry hmem
  have hkept : now < entry.2.heldUntil → entry.1 ≠ key := by
    intro hlt heq
    have hentry : (key, entry.2) ∈ leases.leases := by
      rw [← heq]
      exact hmem
    have hheld := isHeld_iff.mpr ⟨entry.2, hentry, hlt⟩
    rw [hfree] at hheld
    exact Bool.false_ne_true hheld
  simpa using hkept

/-- A slot which is taken for no time does not become held. -/
theorem isHeld_acquire_zero
    (hheld : (leases.acquire now 0 key).2.isHeld now other = true) :
    leases.isHeld now other = true := by
  unfold acquire at hheld
  split at hheld
  · exact hheld
  · rcases isHeld_iff.mp hheld with ⟨lease, hmem, hlt⟩
    rcases List.mem_cons.mp hmem with hnew | hold
    · have hlease : lease.heldUntil = now + 0 :=
        congrArg (fun entry => entry.2.heldUntil) hnew
      omega
    · exact isHeld_iff.mpr ⟨lease, (List.mem_filter.mp hold).1, hlt⟩

/-- A slot which its holder gives back at once was held before, or by nobody. -/
theorem isHeld_releaseOwned_acquire {timeout : ℕ}
    (hfree : leases.isHeld now key = false)
    (hheld : ((leases.acquire now timeout key).2.releaseOwned key
      (UInt64.ofNat leases.nextHolder)).isHeld now other = true) :
    leases.isHeld now other = true := by
  rw [acquire_of_free hfree] at hheld
  rcases isHeld_iff.mp hheld with ⟨lease, hmem, hlt⟩
  have hkept := List.mem_filter.mp hmem
  rcases List.mem_cons.mp hkept.1 with hnew | hold
  · cases hnew
    simp at hkept
  · exact isHeld_iff.mpr ⟨lease, (List.mem_filter.mp hold).1, hlt⟩

/-! ## The live leases -/

omit [DecidableEq Key] in
theorem heldCount_eq_length_live :
    leases.heldCount now = (leases.live now).length :=
  List.countP_eq_length_filter

omit [DecidableEq Key] in
theorem mem_live {entry : Key × Lease} : entry ∈ leases.live now ↔
    entry ∈ leases.leases ∧ now < entry.2.heldUntil := by
  simp [live]

theorem isHeld_iff_live : leases.isHeld now key = true ↔
    ∃ lease, (key, lease) ∈ leases.live now := by
  rw [isHeld_iff]
  simp only [mem_live]

omit [DecidableEq Key] in
@[simp] theorem live_sweep : (leases.sweep now).live now = leases.live now := by
  simp [sweep, live, List.filter_filter]

/-- A free slot has no live entry which taking it could replace. -/
theorem filter_live_of_free (hfree : leases.isHeld now key = false) :
    (leases.leases.filter (·.1 ≠ key)).filter
        (fun entry => now < entry.2.heldUntil) = leases.live now := by
  rw [List.filter_filter]
  apply List.filter_congr
  intro entry hmem
  by_cases hlive : now < entry.2.heldUntil
  · have hne : entry.1 ≠ key := by
      intro heq
      have hheld : leases.isHeld now key = true :=
        isHeld_iff.mpr ⟨entry.2, heq ▸ hmem, hlive⟩
      rw [hfree] at hheld
      exact Bool.false_ne_true hheld
    simp [hlive, hne]
  · simp [hlive]

theorem live_acquire {timeout : ℕ} (hfree : leases.isHeld now key = false) :
    (leases.acquire now timeout key).2.live now =
      if 0 < timeout
      then (key, ⟨UInt64.ofNat leases.nextHolder, now + timeout⟩) ::
        leases.live now
      else leases.live now := by
  have hrest := filter_live_of_free hfree
  rw [acquire_of_free hfree]
  split
  · rename_i hpos
    rw [← hrest, live, List.filter_cons_of_pos (by simpa using hpos)]
  · rename_i hzero
    rw [← hrest, live, List.filter_cons_of_neg (by simpa using hzero)]

/-- A slot which is taken and given back at once leaves the live ones. -/
theorem live_releaseOwned_acquire {timeout : ℕ}
    (hfree : leases.isHeld now key = false) :
    ((leases.acquire now timeout key).2.releaseOwned key
      (UInt64.ofNat leases.nextHolder)).live now = leases.live now := by
  have hrest := filter_live_of_free hfree
  rw [acquire_of_free hfree, ← hrest]
  have hothers : (leases.leases.filter (·.1 ≠ key)).filter (fun entry =>
      ¬ (entry.1 = key ∧
        entry.2.holder = UInt64.ofNat leases.nextHolder)) =
      leases.leases.filter (·.1 ≠ key) := by
    rw [List.filter_eq_self]
    intro entry hmem
    have hne := (List.mem_filter.mp hmem).2
    simp only [ne_eq, decide_not, Bool.not_eq_true', decide_eq_false_iff_not]
      at hne
    simp [hne]
  simp only [releaseOwned, live]
  rw [List.filter_cons_of_neg (by simp), hothers]

end ActionLeases

end HoprStrategy.ChannelLifecycle
