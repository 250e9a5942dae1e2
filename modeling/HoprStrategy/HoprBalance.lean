import Mathlib.Tactic

/-!
# Wei amounts

`HoprBalance` wraps a 256-bit unsigned integer.  Its addition and its scaling
saturate rather than wrap, and its subtraction stops at zero.
-/

namespace HoprStrategy

structure HoprBalance where
  wei : ℕ
  bound : wei < 2 ^ 256
  deriving DecidableEq

namespace HoprBalance

@[ext] theorem ext {left right : HoprBalance} (h : left.wei = right.wei) :
    left = right := by
  cases left
  cases right
  simpa using h

def zero : HoprBalance := ⟨0, by norm_num⟩

/-- The amount `n`, or the largest one when `n` does not fit. -/
def saturating (n : ℕ) : HoprBalance :=
  ⟨min n (2 ^ 256 - 1), by omega⟩

instance : Inhabited HoprBalance := ⟨zero⟩

instance : Add HoprBalance :=
  ⟨fun left right => saturating (left.wei + right.wei)⟩

instance : Sub HoprBalance :=
  ⟨fun left right => ⟨left.wei - right.wei, by have := left.bound; omega⟩⟩

/-- The addition of the wrapped integers, which panics beyond the type. -/
def checkedAdd (left right : HoprBalance) : Option HoprBalance :=
  if h : left.wei + right.wei < 2 ^ 256 then some ⟨_, h⟩ else none

/-- Multiplication by a count, which saturates as the addition does. -/
def scale (balance : HoprBalance) (count : ℕ) : HoprBalance :=
  saturating (balance.wei * count)

instance : LE HoprBalance := ⟨fun left right => left.wei ≤ right.wei⟩

instance : LT HoprBalance := ⟨fun left right => left.wei < right.wei⟩

instance (left right : HoprBalance) : Decidable (left ≤ right) :=
  inferInstanceAs (Decidable (left.wei ≤ right.wei))

instance (left right : HoprBalance) : Decidable (left < right) :=
  inferInstanceAs (Decidable (left.wei < right.wei))

/-- `is_zero` of the balance type. -/
def isZero (balance : HoprBalance) : Bool := balance.wei == 0

@[simp] theorem zero_wei : zero.wei = 0 := rfl

@[simp] theorem sub_wei (left right : HoprBalance) :
    (left - right).wei = left.wei - right.wei := rfl

theorem add_wei (left right : HoprBalance) :
    (left + right).wei = min (left.wei + right.wei) (2 ^ 256 - 1) := rfl

theorem add_wei_of_lt {left right : HoprBalance}
    (h : left.wei + right.wei < 2 ^ 256) :
    (left + right).wei = left.wei + right.wei := by
  rw [add_wei]
  omega

theorem checkedAdd_eq_some {left right total : HoprBalance} :
    left.checkedAdd right = some total ↔
      left.wei + right.wei = total.wei := by
  unfold checkedAdd
  split
  · rw [Option.some.injEq, HoprBalance.ext_iff]
  · rename_i hlarge
    simp only [reduceCtorEq, false_iff]
    exact fun htotal => hlarge (htotal ▸ total.bound)

theorem le_iff (left right : HoprBalance) :
    left ≤ right ↔ left.wei ≤ right.wei := Iff.rfl

theorem lt_iff (left right : HoprBalance) :
    left < right ↔ left.wei < right.wei := Iff.rfl

end HoprBalance

end HoprStrategy
