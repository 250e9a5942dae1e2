import HoprStrategy.Library.EffectProgram
import Mathlib.Algebra.Order.Floor.Div
import Mathlib.Tactic

/-!
# Checked words

Unsigned numbers of a fixed width, with operations which answer nothing when
the exact result has no word.  What a program makes of no answer is its own: an
error which it returns, or an operator which ends the program.
-/

namespace HoprStrategy.Library

structure Word (width : ℕ) where
  toNat : ℕ
  bound : toNat < 2 ^ width
  deriving DecidableEq

namespace Word

variable {width : ℕ} {left right word : Word width}

@[ext] theorem ext (h : left.toNat = right.toNat) : left = right := by
  cases left
  cases right
  simpa using h

def checked (width n : ℕ) : Option (Word width) :=
  if h : n < 2 ^ width then some ⟨n, h⟩ else none

@[simp] theorem checked_eq_some {n : ℕ} :
    checked width n = some word ↔ word.toNat = n := by
  unfold checked
  split
  · rename_i h
    constructor
    · rintro ⟨⟩
      rfl
    · rintro rfl
      rfl
  · rename_i h
    constructor
    · rintro ⟨⟩
    · rintro rfl
      exact absurd word.bound h

theorem checked_eq_none {n : ℕ} : checked width n = none ↔ 2 ^ width ≤ n := by
  unfold checked
  split
  · rename_i h
    simpa using h
  · rename_i h
    simpa using h

def checkedAdd (left right : Word width) : Option (Word width) :=
  checked width (left.toNat + right.toNat)

def checkedMul (left right : Word width) : Option (Word width) :=
  checked width (left.toNat * right.toNat)

def checkedSub (left right : Word width) : Option (Word width) :=
  if right.toNat ≤ left.toNat then
    some ⟨left.toNat - right.toNat, (Nat.sub_le _ _).trans_lt left.bound⟩
  else none

def checkedDiv (left right : Word width) : Option (Word width) :=
  if right.toNat = 0 then none
  else some ⟨left.toNat / right.toNat, (Nat.div_le_self _ _).trans_lt left.bound⟩

/-- The division which rounds up. -/
def divCeil (word : Word width) (divisor : ℕ) : Word width where
  toNat := word.toNat ⌈/⌉ divisor
  bound := by
    refine lt_of_le_of_lt ?_ word.bound
    rcases divisor.eq_zero_or_pos with rfl | hpos
    · simp
    · rw [ceilDiv_le_iff_le_mul hpos]
      exact Nat.le_mul_of_pos_left _ hpos

/-- Powers of ten, by one multiplication after another. -/
def exp10 (width : ℕ) : ℕ → Option (Word width)
  | 0 => checked width 1
  | n + 1 => (exp10 width n).bind fun power => checked width (power.toNat * 10)

@[simp] theorem checkedAdd_eq_some : left.checkedAdd right = some word ↔
    word.toNat = left.toNat + right.toNat :=
  checked_eq_some

@[simp] theorem checkedMul_eq_some : left.checkedMul right = some word ↔
    word.toNat = left.toNat * right.toNat :=
  checked_eq_some

theorem checkedAdd_eq_none : left.checkedAdd right = none ↔
    2 ^ width ≤ left.toNat + right.toNat :=
  checked_eq_none

theorem checkedMul_eq_none : left.checkedMul right = none ↔
    2 ^ width ≤ left.toNat * right.toNat :=
  checked_eq_none

@[simp] theorem checkedSub_eq_some : left.checkedSub right = some word ↔
    left.toNat = word.toNat + right.toNat := by
  unfold checkedSub
  split
  · rw [Option.some_inj, Word.ext_iff]
    change left.toNat - right.toNat = word.toNat ↔ _
    omega
  · simp only [reduceCtorEq, false_iff]
    omega

@[simp] theorem checkedDiv_eq_some : left.checkedDiv right = some word ↔
    right.toNat ≠ 0 ∧ word.toNat = left.toNat / right.toNat := by
  unfold checkedDiv
  split
  · rename_i hzero
    simp [hzero]
  · rename_i hzero
    rw [Option.some_inj, Word.ext_iff]
    simp only [ne_eq, hzero, not_false_eq_true, true_and]
    exact eq_comm

@[simp] theorem exp10_eq_some {n : ℕ} :
    exp10 width n = some word ↔ word.toNat = 10 ^ n := by
  induction n generalizing word with
  | zero => exact checked_eq_some
  | succ n ih =>
      simp only [exp10, Option.bind_eq_some_iff, ih, checked_eq_some, pow_succ]
      constructor
      · rintro ⟨power, hpower, hword⟩
        rw [hword, hpower]
      · intro hword
        have hbound : 10 ^ n < 2 ^ width := by
          have := word.bound
          omega
        exact ⟨⟨10 ^ n, hbound⟩, rfl, hword⟩

end Word

/-! ## Outcomes in sequence -/

namespace Outcome

variable {ε α β : Type} {outcome : Outcome ε α} {next : α → Outcome ε β}

def bind : Outcome ε α → (α → Outcome ε β) → Outcome ε β
  | .returned value, next => next value
  | .failed error, _ => .failed error
  | .crashed, _ => .crashed

instance : Monad (Outcome ε) where
  pure := .returned
  bind := bind

/-- No answer is an error. -/
def orFail (error : ε) : Option α → Outcome ε α
  | some value => .returned value
  | none => .failed error

/-- No answer ends the program. -/
def orCrash : Option α → Outcome ε α
  | some value => .returned value
  | none => .crashed

def ofExcept : Except ε α → Outcome ε α
  | .ok value => .returned value
  | .error error => .failed error

@[simp] theorem pure_eq (value : α) :
    (pure value : Outcome ε α) = .returned value := rfl

@[simp] theorem bind_eq_returned {value : β} :
    outcome >>= next = .returned value ↔
      ∃ first, outcome = .returned first ∧ next first = .returned value := by
  change outcome.bind next = _ ↔ _
  cases outcome <;> simp [bind]

@[simp] theorem bind_eq_crashed :
    outcome >>= next = .crashed ↔
      outcome = .crashed ∨
        ∃ first, outcome = .returned first ∧ next first = .crashed := by
  change outcome.bind next = _ ↔ _
  cases outcome <;> simp [bind]

@[simp] theorem orFail_eq_returned {error : ε} {answer : Option α} {value : α} :
    orFail error answer = .returned value ↔ answer = some value := by
  cases answer <;> simp [orFail]

@[simp] theorem orFail_ne_crashed {error : ε} {answer : Option α} :
    orFail error answer ≠ .crashed := by
  cases answer <;> simp [orFail]

@[simp] theorem orCrash_eq_returned {answer : Option α} {value : α} :
    (orCrash answer : Outcome ε α) = .returned value ↔ answer = some value := by
  cases answer <;> simp [orCrash]

@[simp] theorem orCrash_eq_crashed {answer : Option α} :
    (orCrash answer : Outcome ε α) = .crashed ↔ answer = none := by
  cases answer <;> simp [orCrash]

@[simp] theorem orCrash_some_bind {value : α} :
    (orCrash (some value) : Outcome ε α) >>= next = next value := rfl

theorem orCrash_bind_ne_crashed {answer : Option α} :
    (orCrash answer : Outcome ε α) >>= next ≠ .crashed ↔
      ∃ value, answer = some value ∧ next value ≠ .crashed := by
  cases answer <;> simp

@[simp] theorem ofExcept_eq_returned {answer : Except ε α} {value : α} :
    ofExcept answer = .returned value ↔ answer = .ok value := by
  cases answer <;> simp [ofExcept]

@[simp] theorem ofExcept_ne_crashed {answer : Except ε α} :
    ofExcept answer ≠ .crashed := by
  cases answer <;> simp [ofExcept]

end Outcome

end HoprStrategy.Library
