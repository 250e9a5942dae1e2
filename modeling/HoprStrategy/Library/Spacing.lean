import Mathlib.Data.List.Chain
import Mathlib.Tactic

/-!
# Points which are not far apart

Something which is done again and again, never more than `gap` after the last
time, is done in every stretch of time as often as whole gaps fit into it.
-/

namespace HoprStrategy.Library

/-- No point is more than `gap` after the one before it. -/
def Spaced (gap : ℤ) (points : List ℤ) : Prop :=
  points.IsChain fun before after => after ≤ before + gap

/-- How many points are in a stretch, its ends included. -/
def pointsWithin (first last : ℤ) (points : List ℤ) : ℕ :=
  points.countP fun point => first ≤ point ∧ point ≤ last

variable {gap first last : ℤ} {points : List ℤ}

theorem Spaced.concat {start next : ℤ} (hspaced : Spaced gap (start :: points))
    (hnext : next ≤ points.getLastD start + gap) :
    Spaced gap (start :: (points ++ [next])) := by
  induction points generalizing start with
  | nil => exact List.isChain_cons_cons.mpr ⟨hnext, List.isChain_singleton _⟩
  | cons point rest ih =>
      obtain ⟨hfirst, hrest⟩ := List.isChain_cons_cons.mp hspaced
      rw [List.getLastD_cons] at hnext
      exact List.isChain_cons_cons.mpr ⟨hfirst, ih hrest hnext⟩

theorem pointsWithin_cons (point : ℤ) :
    pointsWithin first last (point :: points) =
      pointsWithin first last points +
        if first ≤ point ∧ point ≤ last then 1 else 0 := by
  simp [pointsWithin, List.countP_cons]

theorem pointsWithin_mono {later : ℤ} (hlater : first ≤ later) :
    pointsWithin later last points ≤ pointsWithin first last points := by
  apply List.countP_mono_left
  intro point _ hpoint
  simp only [decide_eq_true_eq] at hpoint ⊢
  exact ⟨hlater.trans hpoint.1, hpoint.2⟩

theorem ediv_nonpos_of_lt (hgap : 0 < gap) (hlt : last < first + gap) :
    (last - first) / gap ≤ 0 := by
  have hquotient : (last - first) / gap < 1 :=
    Int.ediv_lt_of_lt_mul hgap (by omega)
  omega

/-- Points which go on from before a stretch to within a gap of its end are in
it as often as whole gaps fit. -/
theorem Spaced.ediv_le_pointsWithin (hgap : 0 < gap) {start : ℤ}
    (hspaced : Spaced gap (start :: points)) (hstart : start ≤ first)
    (hend : last < points.getLastD start + gap) :
    (last - first) / gap ≤ pointsWithin first last points := by
  induction points generalizing start first with
  | nil =>
      have hlast : last < start + gap := hend
      have hquotient := ediv_nonpos_of_lt hgap (hlast.trans_le
        (Int.add_le_add_right hstart gap))
      exact hquotient.trans (Int.natCast_nonneg _)
  | cons point rest ih =>
      obtain ⟨hnext, hrest⟩ := List.isChain_cons_cons.mp hspaced
      rw [List.getLastD_cons] at hend
      by_cases hbefore : point ≤ first
      · have hquotient := ih hrest hbefore hend
        rw [pointsWithin_cons]
        push_cast
        split <;> omega
      · by_cases hafter : last < point
        · have hlast : last < first + gap := by omega
          have hquotient := ediv_nonpos_of_lt hgap hlast
          exact hquotient.trans (Int.natCast_nonneg _)
        · -- the first gap of the stretch holds this point
          have hquotient : (last - (first + gap)) / gap ≤
              pointsWithin (first + gap) last rest :=
            ih hrest (by omega) hend
          have hless : (last - (first + gap)) / gap =
              (last - first) / gap - 1 := by
            rw [← Int.sub_sub, Int.sub_ediv_of_dvd _ (dvd_refl gap),
              Int.ediv_self hgap.ne']
          have hmore : pointsWithin (first + gap) last rest ≤
              pointsWithin first last rest := pointsWithin_mono (by omega)
          rw [pointsWithin_cons, if_pos ⟨by omega, by omega⟩]
          push_cast
          omega

end HoprStrategy.Library
