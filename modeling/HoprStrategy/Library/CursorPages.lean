import Mathlib.Data.List.Basic
import Mathlib.Tactic

/-!
# Collections which are read by the page

A page is asked for at an index and says at which index the next one is asked
for.  A read goes on until that index is not below the total, so nothing but
the pages themselves says whether it has seen every index once.
-/

namespace HoprStrategy.Library

/-- A page: where it was asked for, where the next one is, and how many items
it holds. -/
structure PageSpan where
  start : ℕ
  next : ℕ
  count : ℕ

/-- The indices which the items of the pages stand for. -/
def pageIndices (spans : List PageSpan) : List ℕ :=
  spans.flatMap fun span => List.range' span.start span.count

/-- The pages of a read which came to its end: each holds something and
advances. -/
inductive PagesTo (total : ℕ) : ℕ → List PageSpan → Prop
  | done {start : ℕ} (hend : total ≤ start) : PagesTo total start []
  | page {start next count : ℕ} {rest : List PageSpan} (hmore : start < total)
      (hcount : 0 < count) (hadvance : start < next)
      (hrest : PagesTo total next rest) :
      PagesTo total start (⟨start, next, count⟩ :: rest)

/-- The items reach exactly to the next page, or to the total. -/
def PageSpan.Fills (total : ℕ) (span : PageSpan) : Prop :=
  span.start + span.count = min span.next total

variable {total start : ℕ} {span : PageSpan} {spans rest : List PageSpan}

@[simp] theorem pageIndices_nil : pageIndices [] = [] := rfl

@[simp] theorem pageIndices_cons : pageIndices (span :: rest) =
    List.range' span.start span.count ++ pageIndices rest := by
  simp [pageIndices]

theorem length_pageIndices (spans : List PageSpan) :
    (pageIndices spans).length = (spans.map (·.count)).sum := by
  simp [pageIndices, List.length_flatMap]

namespace PagesTo

/-- What is read after an index below the total begins at that index. -/
theorem head?_pageIndices (hpages : PagesTo total start spans)
    (hmore : start < total) : (pageIndices spans).head? = some start := by
  cases hpages with
  | done hend => omega
  | @page start next count rest hmore hcount hadvance hrest =>
      have hpos : count = count - 1 + 1 := by omega
      rw [pageIndices_cons]
      dsimp only
      rw [hpos, List.range'_succ]
      simp

theorem eq_nil (hpages : PagesTo total start spans) (hend : total ≤ start) :
    spans = [] := by
  cases hpages with
  | done => rfl
  | page hmore => omega

/-- The first page of a read fills its place, and the rest is complete. -/
theorem complete_cons (hstart : span.start ≤ total)
    (hrest : PagesTo total span.next rest) :
    pageIndices (span :: rest) =
        List.range' span.start (total - span.start) ↔
      span.Fills total ∧
        pageIndices rest = List.range' span.next (total - span.next) := by
  unfold PageSpan.Fills
  rw [pageIndices_cons]
  constructor
  · intro hall
    have hlength := congrArg List.length hall
    simp only [List.length_append, List.length_range'] at hlength
    have hsplit : total - span.start =
        span.count + (total - span.start - span.count) := by omega
    rw [hsplit, ← List.range'_append_1] at hall
    have htail := List.append_cancel_left hall
    by_cases hmore : span.next < total
    · have hhead := hrest.head?_pageIndices hmore
      have hpos : 0 < total - span.start - span.count := by
        by_contra hzero
        have hempty : total - span.start - span.count = 0 := by omega
        rw [htail, hempty] at hhead
        cases hhead
      have hsucc : total - span.start - span.count =
          total - span.start - span.count - 1 + 1 := by omega
      rw [htail, hsucc, List.range'_succ] at hhead
      simp only [List.head?_cons, Option.some.injEq] at hhead
      have hleft : total - span.start - span.count = total - span.next := by
        omega
      rw [htail, hhead, hleft]
      exact ⟨by omega, rfl⟩
    · have hrest' := hrest.eq_nil (by omega)
      subst hrest'
      have hzero : total - span.next = 0 := by omega
      simp only [pageIndices_nil, List.length_nil] at hlength ⊢
      rw [hzero]
      exact ⟨by omega, rfl⟩
  · intro hboth
    obtain ⟨hfills, htail⟩ := hboth
    rw [htail]
    by_cases hmore : span.next < total
    · have hnext' : span.next = span.start + span.count := by omega
      have hsplit : total - span.start = span.count + (total - span.next) := by
        omega
      rw [hsplit, hnext', List.range'_append_1]
    · have hzero : total - span.next = 0 := by omega
      have hcount : span.count = total - span.start := by omega
      rw [hzero, hcount]
      simp

/-- A read is complete exactly if every page fills its place. -/
theorem complete_iff (hpages : PagesTo total start spans) :
    pageIndices spans = List.range' start (total - start) ↔
      ∀ span ∈ spans, span.Fills total := by
  induction hpages with
  | @done start hend =>
      have hzero : total - start = 0 := by omega
      simp [hzero]
  | @page start next count rest hmore hcount hadvance hrest ih =>
      rw [List.forall_mem_cons, ← ih]
      exact complete_cons hmore.le hrest

/-- Every page advances, so there are no more than indices left. -/
theorem length_le (hpages : PagesTo total start spans) :
    spans.length ≤ total - start := by
  induction hpages with
  | done => simp
  | page hmore _ hadvance _ ih =>
      rw [List.length_cons]
      omega

end PagesTo

end HoprStrategy.Library
