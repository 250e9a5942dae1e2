import Mathlib.Data.List.Basic
import Mathlib.Data.List.Nodup
import Mathlib.Data.List.Perm.Basic
import Mathlib.Data.List.Perm.Subperm

/-!
# Ledgers of unspent items

Items are issued once, are live for a while and are spent once.  A ledger is
accounted for when no live item is listed twice, every live item was issued,
and none was spent.
-/

namespace HoprStrategy.Library

structure Accounted {α : Type*} (issued spent live : List α) : Prop where
  nodup : live.Nodup
  known : live ⊆ issued
  unspent : ∀ item ∈ live, item ∉ spent

namespace Accounted

variable {α : Type*} {issued spent live : List α}

theorem nil : Accounted issued spent [] :=
  ⟨List.nodup_nil, List.nil_subset _, List.forall_mem_nil _⟩

theorem subperm {rest : List α} (haccounted : Accounted issued spent live)
    (hrest : List.Subperm rest live) : Accounted issued spent rest := by
  rcases hrest with ⟨middle, hperm, hsublist⟩
  have hsubset : rest ⊆ live := fun _ hitem =>
    hsublist.subset (hperm.mem_iff.mpr hitem)
  refine ⟨hperm.nodup_iff.mp (haccounted.nodup.sublist hsublist), ?_, ?_⟩
  · exact fun _ hitem => haccounted.known (hsubset hitem)
  · exact fun item hitem => haccounted.unspent item (hsubset hitem)

theorem perm {other : List α} (haccounted : Accounted issued spent live)
    (hperm : other.Perm live) : Accounted issued spent other :=
  haccounted.subperm hperm.subperm

theorem mono {later : List α} (haccounted : Accounted issued spent live)
    (hlater : issued ⊆ later) : Accounted later spent live :=
  ⟨haccounted.nodup, fun _ hitem => hlater (haccounted.known hitem),
    haccounted.unspent⟩

/-- An issued item which was never used becomes live. -/
theorem cons {item : α} (haccounted : Accounted issued spent live)
    (hissued : item ∈ issued) (hlive : item ∉ live) (hspent : item ∉ spent) :
    Accounted issued spent (item :: live) where
  nodup := List.nodup_cons.mpr ⟨hlive, haccounted.nodup⟩
  known := List.cons_subset.mpr ⟨hissued, haccounted.known⟩
  unspent := List.forall_mem_cons.mpr ⟨hspent, haccounted.unspent⟩

/-- Some of the available items are spent, and of the others some stay
live. -/
theorem spend [DecidableEq α] {available other rest inputs : List α}
    (haccounted : Accounted issued spent (available ++ other))
    (hinputs : inputs ⊆ available) (hrest : List.Subperm rest other) :
    Accounted issued (inputs ++ spent)
      (available.filter (fun item => item ∉ inputs) ++ rest) := by
  have hdisjoint : List.Disjoint available other :=
    (List.nodup_append'.mp haccounted.nodup).2.2
  have hsubperm : List.Subperm
      (available.filter (fun item => item ∉ inputs) ++ rest)
      (available ++ other) :=
    List.filter_sublist.subperm.append hrest
  have hkept := haccounted.subperm hsubperm
  refine ⟨hkept.nodup, hkept.known, ?_⟩
  intro item hitem hspent
  rcases List.mem_append.mp hspent with hinput | hspent
  · rcases List.mem_append.mp hitem with havailable | hother
    · simp [hinput] at havailable
    · exact hdisjoint (hinputs hinput) (hrest.subset hother)
  · exact hkept.unspent item hitem hspent

/-- What is spent was live, so it was not spent before. -/
theorem disjoint_spent {inputs : List α}
    (haccounted : Accounted issued spent live) (hinputs : inputs ⊆ live) :
    List.Disjoint inputs spent :=
  fun _ hinput hspent => haccounted.unspent _ (hinputs hinput) hspent

end Accounted

end HoprStrategy.Library
