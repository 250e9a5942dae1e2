import Mathlib.Algebra.BigOperators.Intervals

/-!
# Lists that tile an interval of indices

A list tiles `[first, stop)` when its elements describe consecutive non-empty
subintervals in order.  `covers lo hi element` says that `element` describes
`[lo, hi)`.  Appending at the end, dropping a prefix and merging the two first
elements keep a tiling, the elements stand in the order of the intervals, and a
quantity which is additive over the described intervals adds up over the whole
one.
-/

namespace HoprStrategy.Library

variable {α : Type}

inductive Tiles (covers : ℕ → ℕ → α → Prop) : ℕ → List α → ℕ → Prop
  | nil (stop : ℕ) : Tiles covers stop [] stop
  | cons {first middle stop : ℕ} {element : α} {rest : List α}
      (hlt : first < middle) (hcovers : covers first middle element)
      (hrest : Tiles covers middle rest stop) :
      Tiles covers first (element :: rest) stop

namespace Tiles

variable {covers covers' : ℕ → ℕ → α → Prop} {first stop : ℕ}
  {elements : List α}

theorem le (htiles : Tiles covers first elements stop) : first ≤ stop := by
  induction htiles with
  | nil => exact le_rfl
  | cons hlt _ _ ih => omega

theorem snoc {next : ℕ} {element : α}
    (htiles : Tiles covers first elements stop)
    (hlt : stop < next) (hcovers : covers stop next element) :
    Tiles covers first (elements ++ [element]) next := by
  induction htiles with
  | nil => exact .cons hlt hcovers (.nil next)
  | cons hhead hfirst _ ih => exact .cons hhead hfirst (ih hlt hcovers)

/-- The description may change as long as it is kept inside the interval. -/
theorem congr (htiles : Tiles covers first elements stop)
    (himp : ∀ lo hi element, first ≤ lo → lo < hi → hi ≤ stop →
      covers lo hi element → covers' lo hi element) :
    Tiles covers' first elements stop := by
  induction htiles with
  | nil => exact .nil _
  | cons hlt hcovers hrest ih =>
      refine .cons hlt (himp _ _ _ le_rfl hlt hrest.le hcovers) (ih ?_)
      intro lo hi element hlo
      exact himp lo hi element (by omega)

theorem merge {left right merged : α} {rest : List α}
    (htiles : Tiles covers first (left :: right :: rest) stop)
    (hmerge : ∀ middle next, covers first middle left →
      covers middle next right → first < middle → middle < next →
      next ≤ stop → covers first next merged) :
    Tiles covers first (merged :: rest) stop := by
  cases htiles with
  | cons hleft hcoversLeft htail =>
      cases htail with
      | cons hright hcoversRight hrest =>
          exact .cons (by omega)
            (hmerge _ _ hcoversLeft hcoversRight hleft hright hrest.le) hrest

/-- Every element describes a part of the interval. -/
theorem mem_covers {element : α} (htiles : Tiles covers first elements stop)
    (hmem : element ∈ elements) :
    ∃ lo hi, first ≤ lo ∧ lo < hi ∧ hi ≤ stop ∧ covers lo hi element := by
  induction htiles with
  | nil => cases hmem
  | @cons first middle stop head rest hlt hcovers hrest ih =>
      rcases List.mem_cons.mp hmem with rfl | hin
      · exact ⟨first, middle, le_rfl, hlt, hrest.le, hcovers⟩
      · obtain ⟨lo, hi, hlo, hpart, hhi, hcov⟩ := ih hin
        exact ⟨lo, hi, by omega, hpart, hhi, hcov⟩

/-- Every part of the interval is described by an element. -/
theorem exists_mem {index : ℕ} (htiles : Tiles covers first elements stop)
    (hlo : first ≤ index) (hhi : index < stop) :
    ∃ lo hi element, element ∈ elements ∧ lo ≤ index ∧ index < hi ∧
      hi ≤ stop ∧ covers lo hi element := by
  induction htiles with
  | nil => omega
  | @cons first middle stop head rest hlt hcovers hrest ih =>
      by_cases hin : index < middle
      · exact ⟨first, middle, head, List.mem_cons_self, hlo, hin, hrest.le,
          hcovers⟩
      · obtain ⟨lo, hi, element, hmem, hpart⟩ := ih (by omega) hhi
        exact ⟨lo, hi, element, List.mem_cons_of_mem head hmem, hpart⟩

/-- What holds of an element and any which describes a later part. -/
theorem pairwise {Later : α → α → Prop}
    (htiles : Tiles covers first elements stop)
    (hlater : ∀ lo hi lo' hi' left right, lo < hi → hi ≤ lo' → lo' < hi' →
      hi' ≤ stop → covers lo hi left → covers lo' hi' right →
      Later left right) :
    elements.Pairwise Later := by
  induction htiles with
  | nil => exact List.Pairwise.nil
  | cons hlt hcovers hrest ih =>
      refine List.Pairwise.cons ?_ (ih hlater)
      intro right hmem
      obtain ⟨lo, hi, hlo, hpart, hhi, hcov⟩ := hrest.mem_covers hmem
      exact hlater _ _ _ _ _ _ hlt hlo hpart hhi hcovers hcov

/-- What holds of an element and the one right behind it. -/
theorem isChain {Next : α → α → Prop}
    (htiles : Tiles covers first elements stop)
    (hnext : ∀ lo middle hi left right, lo < middle → middle < hi →
      hi ≤ stop → covers lo middle left → covers middle hi right →
      Next left right) :
    elements.IsChain Next := by
  induction htiles with
  | nil => exact List.IsChain.nil
  | cons hlt hcovers hrest ih =>
      cases hrest with
      | nil => exact List.IsChain.singleton _
      | cons hlt' hcovers' hrest' =>
          exact List.IsChain.cons_cons
            (hnext _ _ _ _ _ hlt hlt' hrest'.le hcovers hcovers') (ih hnext)

/-- Additive quantities add up. -/
theorem sum_eq {weight : ℕ → ℕ} (value : α → ℕ)
    (htiles : Tiles covers first elements stop)
    (hvalue : ∀ lo hi element, covers lo hi element →
      value element = ∑ i ∈ Finset.Ico lo hi, weight i) :
    (elements.map value).sum = ∑ i ∈ Finset.Ico first stop, weight i := by
  induction htiles with
  | nil => simp
  | cons hlt hcovers hrest ih =>
      rw [List.map_cons, List.sum_cons, ih, hvalue _ _ _ hcovers]
      exact Finset.sum_Ico_consecutive weight hlt.le hrest.le

end Tiles

end HoprStrategy.Library
