import Mathlib.Data.List.Basic

/-!
# Slots filled in two passes

The items of a list are gone through once.  Some are answered on the spot, the
rest is kept with its position, and answered later.  Every slot is filled
exactly once, so the answers stand in the order of the items.
-/

namespace HoprStrategy.Library

variable {α β γ : Type}

structure Slots (β γ : Type) where
  kept : List (ℕ × γ)
  answers : List (Option β)

namespace Slots

variable (route : α → β ⊕ γ)

/-- An item is answered, or kept with its position. -/
def take (slots : Slots β γ) (item : α × ℕ) : Slots β γ :=
  match route item.1 with
  | .inl answer =>
      { slots with answers := slots.answers.set item.2 (some answer) }
  | .inr rest => { slots with kept := slots.kept ++ [(item.2, rest)] }

def of (items : List α) : Slots β γ :=
  items.zipIdx.foldl (take route) ⟨[], items.map fun _ => none⟩

def write (later : γ → β) (answers : List (Option β)) (kept : ℕ × γ) :
    List (Option β) :=
  answers.set kept.1 (some (later kept.2))

/-- What is kept is answered. -/
def fill (slots : Slots β γ) (later : γ → β) : List (Option β) :=
  slots.kept.foldl (write later) slots.answers

def keptFrom (items : List α) (first : ℕ) : List (ℕ × γ) :=
  (items.zipIdx first).filterMap fun item =>
    (route item.1).getRight?.map fun rest => (item.2, rest)

theorem foldl_take (items : List α) (kept : List (ℕ × γ))
    (before : List (Option β)) :
    (items.zipIdx before.length).foldl (take route)
        ⟨kept, before ++ items.map fun _ => none⟩ =
      ⟨kept ++ keptFrom route items before.length,
        before ++ items.map fun item => (route item).getLeft?⟩ := by
  induction items generalizing kept before with
  | nil => simp [keptFrom]
  | cons item rest ih =>
      have hnext := fun answer kept' => ih kept' (before ++ [answer])
      simp only [List.length_append, List.length_singleton,
        List.append_assoc, List.singleton_append] at hnext
      cases hroute : route item with
      | inl answer =>
          have htake : take route
              ⟨kept, before ++ none :: rest.map fun _ => none⟩
              (item, before.length) =
                ⟨kept, before ++ some answer :: rest.map fun _ => none⟩ := by
            simp [take, hroute]
          simp only [List.zipIdx_cons, List.foldl_cons, List.map_cons]
          rw [htake, hnext]
          simp [keptFrom, hroute]
      | inr late =>
          have htake : take route
              ⟨kept, before ++ none :: rest.map fun _ => none⟩
              (item, before.length) =
                ⟨kept ++ [(before.length, late)],
                  before ++ none :: rest.map fun _ => none⟩ := by
            simp [take, hroute]
          simp only [List.zipIdx_cons, List.foldl_cons, List.map_cons]
          rw [htake, hnext]
          simp [keptFrom, hroute]

theorem of_eq (items : List α) :
    of route items =
      ⟨keptFrom route items 0, items.map fun item => (route item).getLeft?⟩ :=
  foldl_take route items [] []

theorem foldl_write (later : γ → β) (items : List α)
    (before : List (Option β)) :
    (keptFrom route items before.length).foldl (write later)
        (before ++ items.map fun item => (route item).getLeft?) =
      before ++ items.map fun item =>
        some ((route item).elim id later) := by
  induction items generalizing before with
  | nil => simp [keptFrom]
  | cons item rest ih =>
      have hnext := fun answer => ih (before ++ [answer])
      simp only [List.length_append, List.length_singleton,
        List.append_assoc, List.singleton_append] at hnext
      cases hroute : route item with
      | inl answer =>
          simpa [keptFrom, hroute] using hnext (some answer)
      | inr late =>
          have hfirst : keptFrom route (item :: rest) before.length =
              (before.length, late) ::
                keptFrom route rest (before.length + 1) := by
            simp [keptFrom, hroute]
          have hwrite : write later (before ++ none :: rest.map fun item =>
              (route item).getLeft?) (before.length, late) =
                before ++ some (later late) :: rest.map fun item =>
                  (route item).getLeft? := by
            simp [write]
          rw [hfirst, List.foldl_cons, List.map_cons, hroute,
            Sum.getLeft?_inr, hwrite, hnext, List.map_cons, hroute]
          rfl

/-- Every slot is filled, in the order of the items. -/
theorem fill_of (later : γ → β) (items : List α) :
    (of route items).fill later =
      items.map fun item => some ((route item).elim id later) := by
  rw [of_eq]
  exact foldl_write route later items []

/-- What was not answered on the spot, in the order of the items. -/
theorem kept_of (items : List α) :
    (of route items).kept.map Prod.snd =
      items.filterMap fun item => (route item).getRight? := by
  rw [of_eq]
  suffices hfrom : ∀ first, (keptFrom route items first).map Prod.snd =
      items.filterMap fun item => (route item).getRight? from hfrom 0
  intro first
  induction items generalizing first with
  | nil => rfl
  | cons item rest ih =>
      have hrest := ih (first + 1)
      cases hroute : route item with
      | inl answer =>
          simpa [keptFrom, hroute] using hrest
      | inr late =>
          simpa [keptFrom, hroute] using hrest

end Slots

/-- The answers, if every slot is filled. -/
def expectFilled (answers : List (Option β)) : Option (List β) :=
  answers.mapM id

theorem expectFilled_map_some (answer : α → β) (items : List α) :
    expectFilled (items.map fun item => some (answer item)) =
      some (items.map answer) := by
  induction items with
  | nil => rfl
  | cons item rest ih =>
      unfold expectFilled at ih ⊢
      simp [ih]

end HoprStrategy.Library
