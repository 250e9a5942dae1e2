import Mathlib.Data.Finset.Insert
import Mathlib.Data.Finset.Erase
import Mathlib.Data.List.Count
import Mathlib.Tactic

/-!
# Exclusive claims

A guard set marks what some holder has claimed.  It is exact when every key is
held at most once and just the held keys are marked.  A step which claims a
free key, or which gives one of its own keys back, keeps it exact.
-/

namespace HoprStrategy.Library

variable {Key : Type} {held held' : Key → ℕ} {guard : Finset Key}

/-- Every key is held at most once, and the held ones are marked. -/
structure Exclusive (held : Key → ℕ) (guard : Finset Key) : Prop where
  once : ∀ key, held key ≤ 1
  marked : ∀ key, key ∈ guard ↔ 0 < held key

theorem Exclusive.nothing : Exclusive (fun _ : Key => 0) ∅ where
  once _ := Nat.zero_le _
  marked _ := iff_of_false (Finset.notMem_empty _) (Nat.lt_irrefl _)

theorem Exclusive.free_iff (hexclusive : Exclusive held guard) {key : Key} :
    key ∉ guard ↔ held key = 0 := by
  rw [hexclusive.marked, Nat.pos_iff_ne_zero, not_not]

theorem Exclusive.keep (hexclusive : Exclusive held guard)
    (hheld : ∀ key, held' key = held key) : Exclusive held' guard where
  once key := by
    rw [hheld]
    exact hexclusive.once key
  marked key := by
    rw [hheld]
    exact hexclusive.marked key

variable [DecidableEq Key]

theorem Exclusive.claim (hexclusive : Exclusive held guard) {key : Key}
    (hfree : key ∉ guard)
    (hheld : ∀ other, held' other = held other + [key].count other) :
    Exclusive held' (insert key guard) := by
  have hzero := hexclusive.free_iff.mp hfree
  constructor
  · intro other
    have hbefore := hexclusive.once other
    rw [hheld]
    by_cases hsame : other = key
    · subst hsame
      simp [hzero]
    · simpa [Ne.symm hsame] using hbefore
  · intro other
    rw [hheld, Finset.mem_insert, hexclusive.marked]
    by_cases hsame : other = key
    · subst hsame
      simp
    · simp [hsame, Ne.symm hsame]

theorem Exclusive.release (hexclusive : Exclusive held guard) {key : Key}
    (hheld : ∀ other, held' other + [key].count other = held other) :
    Exclusive held' (guard.erase key) := by
  have hone := hheld key
  have honce := hexclusive.once key
  simp only [List.count_singleton_self] at hone
  constructor
  · intro other
    have hother := hheld other
    have hbefore := hexclusive.once other
    omega
  · intro other
    have hother := hheld other
    rw [Finset.mem_erase, hexclusive.marked]
    by_cases hsame : other = key
    · subst hsame
      simp only [ne_eq, not_true_eq_false, false_and, false_iff]
      omega
    · rw [List.count_singleton, beq_eq_false_iff_ne.mpr
        (Ne.symm hsame)] at hother
      simp only [Bool.false_eq_true, if_false, add_zero] at hother
      rw [hother]
      exact and_iff_right hsame

end HoprStrategy.Library
