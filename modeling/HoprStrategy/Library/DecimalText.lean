import HoprStrategy.Library.CheckedWords
import Mathlib.Data.List.DropRight
import Mathlib.Tactic

/-!
# Numbers in decimal text

Text is read as an unsigned number of a given width, digit by digit, and the
first digit which is none or does not fit ends the reading.  The digits denote
`decimalValue`, and what is read is just the text whose value fits.
-/

namespace HoprStrategy.Library

inductive ParseIntError where
  | empty
  | invalidDigit
  | posOverflow
  deriving DecidableEq

def ParseIntError.text : ParseIntError → String
  | .empty => "cannot parse integer from empty string"
  | .invalidDigit => "invalid digit found in string"
  | .posOverflow => "number too large to fit in target type"

variable {width : ℕ}

def digitValue (digit : Char) : ℕ := digit.toNat - 48

def appendDigit (value : ℕ) (digit : Char) : ℕ := value * 10 + digitValue digit

def decimalValue (digits : List Char) : ℕ := digits.foldl appendDigit 0

def parseDigits (value : Word width) :
    List Char → Except ParseIntError (Word width)
  | [] => .ok value
  | digit :: rest =>
      if ! digit.isDigit then .error .invalidDigit
      else
        match (Word.checked width (value.toNat * 10)).bind fun scaled =>
            Word.checked width (scaled.toNat + digitValue digit) with
        | none => .error .posOverflow
        | some next => parseDigits next rest

/-- `parse` of an unsigned number, which may have a plus sign. -/
def parseUnsigned (width : ℕ) (text : String) :
    Except ParseIntError (Word width) :=
  match text.toList with
  | [] => .error .empty
  | ['+'] => .error .invalidDigit
  | '+' :: digits => parseDigits ⟨0, Nat.two_pow_pos _⟩ digits
  | digits => parseDigits ⟨0, Nat.two_pow_pos _⟩ digits

/-! ## What is read -/

theorem parseUnsigned_of_digits {width : ℕ} {text : String} {first : Char}
    {rest : List Char} (htext : text.toList = first :: rest)
    (hplus : first ≠ '+') :
    parseUnsigned width text =
      parseDigits ⟨0, Nat.two_pow_pos _⟩ (first :: rest) := by
  unfold parseUnsigned
  rw [htext]
  split
  · next heq => cases heq
  · next heq => exact absurd (List.cons.inj heq).1 hplus
  · next heq => exact absurd (List.cons.inj heq).1 hplus
  · rfl

theorem le_foldl_appendDigit (value : ℕ) (digits : List Char) :
    value ≤ digits.foldl appendDigit value := by
  induction digits generalizing value with
  | nil => exact le_rfl
  | cons digit rest ih =>
      refine le_trans ?_ (ih _)
      unfold appendDigit
      omega

theorem parseDigits_eq_ok {value word : Word width} {digits : List Char} :
    parseDigits value digits = .ok word ↔
      digits.all Char.isDigit = true ∧
        word.toNat = digits.foldl appendDigit value.toNat := by
  induction digits generalizing value with
  | nil =>
      simp only [parseDigits, Except.ok.injEq, List.all_nil, List.foldl_nil,
        true_and, Word.ext_iff]
      exact eq_comm
  | cons digit rest ih =>
      by_cases hdigit : digit.isDigit
      · have hgrows := le_foldl_appendDigit (appendDigit value.toNat digit) rest
        simp only [parseDigits, hdigit, Bool.not_true, Bool.false_eq_true,
          if_false, List.all_cons, Bool.true_and, List.foldl_cons]
        split
        · rename_i hnone
          simp only [reduceCtorEq, false_iff, not_and]
          rintro - hword
          have hfits : appendDigit value.toNat digit < 2 ^ width := by
            have := word.bound
            omega
          have hscaled : value.toNat * 10 < 2 ^ width :=
            lt_of_le_of_lt (Nat.le_add_right _ _) hfits
          have hsome : ((Word.checked width (value.toNat * 10)).bind
              fun scaled => Word.checked width
                (scaled.toNat + digitValue digit)) =
              some ⟨appendDigit value.toNat digit, hfits⟩ :=
            Option.bind_eq_some_iff.mpr
              ⟨⟨_, hscaled⟩, Word.checked_eq_some.mpr rfl,
                Word.checked_eq_some.mpr rfl⟩
          rw [hnone] at hsome
          cases hsome
        · rename_i next hsome
          simp only [Option.bind_eq_some_iff, Word.checked_eq_some] at hsome
          obtain ⟨scaled, hscaled, hnext⟩ := hsome
          rw [ih, hnext, hscaled]
          rfl
      · simp [parseDigits, hdigit]

/-- What is read is the value of the digits, if there is nothing else and it
fits. -/
theorem parseDigits_toOption {digits : List Char} :
    (parseDigits (⟨0, Nat.two_pow_pos _⟩ : Word width) digits).toOption.map
        Word.toNat =
      if digits.all Char.isDigit = true ∧ decimalValue digits < 2 ^ width then
        some (decimalValue digits)
      else none := by
  cases hparsed : parseDigits (⟨0, Nat.two_pow_pos _⟩ : Word width) digits with
  | ok word =>
      obtain ⟨hdigits, hword⟩ := parseDigits_eq_ok.mp hparsed
      have hvalue : word.toNat = decimalValue digits := hword
      rw [if_pos ⟨hdigits, hvalue ▸ word.bound⟩, ← hvalue]
      rfl
  | error error =>
      have hrefused : ¬ (digits.all Char.isDigit = true ∧
          decimalValue digits < 2 ^ width) := by
        rintro ⟨hdigits, hfits⟩
        have hok : parseDigits (⟨0, Nat.two_pow_pos _⟩ : Word width) digits =
            .ok ⟨decimalValue digits, hfits⟩ :=
          parseDigits_eq_ok.mpr ⟨hdigits, rfl⟩
        rw [hparsed] at hok
        cases hok
      rw [if_neg hrefused]
      rfl

/-! ## Digits put together -/

theorem foldl_appendDigit (value : ℕ) (digits : List Char) :
    digits.foldl appendDigit value =
      value * 10 ^ digits.length + decimalValue digits := by
  unfold decimalValue
  induction digits generalizing value with
  | nil => simp
  | cons digit rest ih =>
      simp only [List.foldl_cons, List.length_cons]
      rw [ih (appendDigit value digit), ih (appendDigit 0 digit)]
      simp only [appendDigit]
      ring

theorem decimalValue_append (digits rest : List Char) :
    decimalValue (digits ++ rest) =
      decimalValue digits * 10 ^ rest.length + decimalValue rest := by
  rw [decimalValue, List.foldl_append, foldl_appendDigit]
  rfl

theorem digitValue_lt {digit : Char} (hdigit : digit.isDigit = true) :
    digitValue digit < 10 := by
  have hle : digit.toNat ≤ 57 := by
    simp only [Char.isDigit, Bool.and_eq_true, decide_eq_true_eq] at hdigit
    exact hdigit.2
  unfold digitValue
  omega

theorem decimalValue_lt {digits : List Char}
    (hdigits : digits.all Char.isDigit = true) :
    decimalValue digits < 10 ^ digits.length := by
  induction digits with
  | nil => simp [decimalValue]
  | cons digit rest ih =>
      simp only [List.all_cons, Bool.and_eq_true] at hdigits
      have hfirst := digitValue_lt hdigits.1
      have hrest := ih hdigits.2
      have hsplit := decimalValue_append [digit] rest
      have hone : decimalValue [digit] = digitValue digit := by
        simp [decimalValue, appendDigit]
      rw [List.singleton_append, hone] at hsplit
      rw [hsplit, List.length_cons, pow_succ]
      have hle := Nat.mul_le_mul_right (10 ^ rest.length)
        (Nat.le_of_lt_succ hfirst)
      omega

theorem decimalValue_replicate_zero (n : ℕ) :
    decimalValue (List.replicate n '0') = 0 := by
  induction n with
  | zero => rfl
  | succ n ih => exact ih

/-- Digits which are cut and padded to `places` are those of the scaled
fraction, rounded down. -/
theorem decimalValue_rightpad {fraction : List Char} (places : ℕ)
    (hdigits : fraction.all Char.isDigit = true) :
    decimalValue ((fraction.take places).rightpad places '0') =
      decimalValue fraction * 10 ^ places / 10 ^ fraction.length := by
  unfold List.rightpad
  rw [decimalValue_append, decimalValue_replicate_zero, List.length_replicate,
    List.length_take, Nat.add_zero]
  by_cases hshort : fraction.length ≤ places
  · have hscale : 10 ^ places =
        10 ^ (places - fraction.length) * 10 ^ fraction.length := by
      rw [← pow_add, Nat.sub_add_cancel hshort]
    rw [List.take_of_length_le hshort, Nat.min_eq_right hshort, hscale,
      ← Nat.mul_assoc, Nat.mul_div_cancel _ (by positivity)]
  · have hlong : places ≤ fraction.length := by omega
    have hscale : 10 ^ fraction.length =
        10 ^ (fraction.length - places) * 10 ^ places := by
      rw [← pow_add, Nat.sub_add_cancel hlong]
    have hsplit := decimalValue_append (fraction.take places)
      (fraction.drop places)
    rw [List.take_append_drop, List.length_drop] at hsplit
    have hdropped : decimalValue (fraction.drop places) <
        10 ^ (fraction.length - places) := by
      rw [← List.length_drop]
      refine decimalValue_lt (List.all_eq_true.mpr ?_)
      intro digit hmem
      exact List.all_eq_true.mp hdigits digit (List.mem_of_mem_drop hmem)
    rw [Nat.min_eq_left hlong, Nat.sub_self, pow_zero, Nat.mul_one, hscale,
      Nat.mul_div_mul_right _ _ (by positivity), hsplit, Nat.mul_comm,
      Nat.mul_add_div (by positivity), Nat.div_eq_of_lt hdropped, Nat.add_zero]

end HoprStrategy.Library
