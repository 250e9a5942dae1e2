import Mathlib.Tactic

/-!
# Records of fixed layout

A record is the octets of its pieces in a row, and a reader takes each piece
from its own offset.  The codec of a piece always writes the same number of
octets and reads back what it wrote.
-/

namespace HoprStrategy.Library

/-! ## Big-endian numbers -/

/-- The big-endian octets of a number; what the size has no room for is
lost. -/
def toBigEndian : ℕ → ℕ → List UInt8
  | 0, _ => []
  | size + 1, value =>
      UInt8.ofNat (value / 256 ^ size) :: toBigEndian size value

def ofBigEndian : List UInt8 → ℕ
  | [] => 0
  | octet :: rest => octet.toNat * 256 ^ rest.length + ofBigEndian rest

@[simp] theorem length_toBigEndian (size value : ℕ) :
    (toBigEndian size value).length = size := by
  induction size with
  | zero => rfl
  | succ size ih => rw [toBigEndian, List.length_cons, ih]

theorem ofBigEndian_toBigEndian (size value : ℕ) :
    ofBigEndian (toBigEndian size value) = value % 256 ^ size := by
  induction size with
  | zero => simp [toBigEndian, ofBigEndian, Nat.mod_one]
  | succ size ih =>
      have hoctet : (UInt8.ofNat (value / 256 ^ size)).toNat =
          value / 256 ^ size % 256 := by simp
      rw [toBigEndian, ofBigEndian, ih, hoctet, length_toBigEndian,
        Nat.mod_pow_succ, Nat.mul_comm, Nat.add_comm]

/-! ## Pieces -/

def slice (octets : List UInt8) (offset size : ℕ) : List UInt8 :=
  (octets.drop offset).take size

/-- Each piece of a record is read at the offset of what stands before it. -/
theorem slice_flatten {pieces : List (List UInt8)} (index : ℕ)
    {offset size : ℕ} {piece : List UInt8} (hpiece : pieces[index]? = some piece)
    (hoffset : ((pieces.take index).map List.length).sum = offset)
    (hsize : piece.length = size) :
    slice pieces.flatten offset size = piece := by
  subst hoffset
  subst hsize
  induction pieces generalizing index with
  | nil => cases hpiece
  | cons first rest ih =>
      cases index with
      | zero =>
          rw [List.getElem?_cons_zero, Option.some.injEq] at hpiece
          subst hpiece
          simp [slice]
      | succ index =>
          rw [List.getElem?_cons_succ] at hpiece
          have hrest := ih index hpiece
          simp only [slice] at hrest ⊢
          rw [List.take_succ_cons, List.map_cons, List.sum_cons,
            List.flatten_cons, List.drop_length_add_append]
          exact hrest

/-- A codec of a fixed number of octets. -/
structure FixedCodec (α : Type) (size : ℕ) where
  encode : α → List UInt8
  decode : List UInt8 → Except String α
  length_encode : ∀ value, (encode value).length = size
  decode_encode : ∀ value, decode (encode value) = .ok value

attribute [simp] FixedCodec.length_encode FixedCodec.decode_encode

end HoprStrategy.Library
