import HoprStrategy.Library.FixedLayout

/-!
# Arguments in the contract ABI

Each argument has a word of 32 octets in the head: a static one its value, a
dynamic one the offset of its tail.  A tail is the length of the octets, the
octets and zeros up to the next word.  The strict decoder accepts the canonical
encoding and nothing else: offsets are where the previous tail ends, the
padding is zero and nothing is left over.
-/

namespace HoprStrategy.Library

def abiWord (value : ℕ) : List UInt8 := toBigEndian 32 value

def abiPadding (size : ℕ) : List UInt8 :=
  List.replicate ((32 - size % 32) % 32) 0

def abiTail (octets : List UInt8) : List UInt8 :=
  abiWord octets.length ++ (octets ++ abiPadding octets.length)

inductive AbiKind where
  | static
  | dynamic
  deriving DecidableEq

inductive AbiArg where
  | static (value : ℕ)
  | dynamic (octets : List UInt8)
  deriving DecidableEq

def AbiArg.kind : AbiArg → AbiKind
  | .static _ => .static
  | .dynamic _ => .dynamic

/-- The head words of arguments whose first tail starts at `frontier`. -/
def abiHeads (frontier : ℕ) : List AbiArg → List UInt8
  | [] => []
  | .static value :: rest => abiWord value ++ abiHeads frontier rest
  | .dynamic octets :: rest =>
      abiWord frontier ++
        abiHeads (frontier + (abiTail octets).length) rest

def abiTails : List AbiArg → List UInt8
  | [] => []
  | .static _ :: rest => abiTails rest
  | .dynamic octets :: rest => abiTail octets ++ abiTails rest

def abiEncode (args : List AbiArg) : List UInt8 :=
  abiHeads (32 * args.length) args ++ abiTails args

/-! ## The strict decoder -/

/-- The octets of a tail, and what comes after it. -/
def abiDecodeTail (input : List UInt8) : Option (List UInt8 × List UInt8) :=
  let size := ofBigEndian (input.take 32)
  let octets := (input.drop 32).take size
  let rest := (input.drop 32).drop size
  if 32 ≤ input.length ∧ octets.length = size ∧
      rest.take (abiPadding size).length = abiPadding size then
    some (octets, rest.drop (abiPadding size).length)
  else none

def abiDecodeFrom (frontier : ℕ) :
    List AbiKind → List UInt8 → List UInt8 → Option (List AbiArg)
  | [], heads, tails => if heads = [] ∧ tails = [] then some [] else none
  | .static :: kinds, heads, tails =>
      if heads.length < 32 then none
      else
        (abiDecodeFrom frontier kinds (heads.drop 32) tails).map
          (.static (ofBigEndian (heads.take 32)) :: ·)
  | .dynamic :: kinds, heads, tails =>
      if heads.length < 32 ∨ ofBigEndian (heads.take 32) ≠ frontier then none
      else
        match abiDecodeTail tails with
        | none => none
        | some (octets, rest) =>
            (abiDecodeFrom (frontier + (abiTail octets).length) kinds
              (heads.drop 32) rest).map (.dynamic octets :: ·)

def abiDecode (kinds : List AbiKind) (input : List UInt8) :
    Option (List AbiArg) :=
  abiDecodeFrom (32 * kinds.length) kinds (input.take (32 * kinds.length))
    (input.drop (32 * kinds.length))

/-! ## Words -/

@[simp] theorem length_abiWord (value : ℕ) : (abiWord value).length = 32 :=
  length_toBigEndian 32 value

theorem length_abiTail_le (octets : List UInt8) :
    (abiTail octets).length ≤ octets.length + 64 := by
  simp only [abiTail, abiPadding, List.length_append, length_abiWord,
    List.length_replicate]
  omega

theorem ofBigEndian_abiWord {value : ℕ} (hvalue : value < 2 ^ 256) :
    ofBigEndian (abiWord value) = value := by
  rw [abiWord, ofBigEndian_toBigEndian]
  exact Nat.mod_eq_of_lt (by norm_num at hvalue ⊢; exact hvalue)

theorem ofBigEndian_lt (octets : List UInt8) :
    ofBigEndian octets < 256 ^ octets.length := by
  induction octets with
  | nil => exact Nat.one_pos
  | cons octet rest ih =>
      have hoctet : octet.toNat + 1 ≤ 256 := octet.toNat_lt
      have hle := Nat.mul_le_mul_right (256 ^ rest.length) hoctet
      rw [ofBigEndian, List.length_cons, pow_succ]
      linarith

/-- What has no room is lost. -/
theorem toBigEndian_mul_add (size lost value : ℕ) :
    toBigEndian size (lost * 256 ^ size + value) = toBigEndian size value := by
  induction size generalizing lost with
  | zero => rfl
  | succ size ih =>
      have hlost : lost * 256 ^ (size + 1) = lost * 256 * 256 ^ size := by
        rw [pow_succ]
        ring
      have hhead : UInt8.ofNat ((lost * 256 * 256 ^ size + value) / 256 ^ size) =
          UInt8.ofNat (value / 256 ^ size) := by
        apply UInt8.toNat_inj.mp
        rw [Nat.add_comm, Nat.add_mul_div_right _ _ (by positivity),
          UInt8.toNat_ofNat', UInt8.toNat_ofNat', Nat.add_mul_mod_self_right]
      rw [toBigEndian, toBigEndian, hlost, hhead, ih]

theorem toBigEndian_ofBigEndian (octets : List UInt8) :
    toBigEndian octets.length (ofBigEndian octets) = octets := by
  induction octets with
  | nil => rfl
  | cons octet rest ih =>
      have hrest := ofBigEndian_lt rest
      have hhead : (octet.toNat * 256 ^ rest.length + ofBigEndian rest) /
          256 ^ rest.length = octet.toNat := by
        rw [Nat.add_comm, Nat.add_mul_div_right _ _ (by positivity),
          Nat.div_eq_of_lt hrest, Nat.zero_add]
      rw [List.length_cons, ofBigEndian, toBigEndian, hhead,
        toBigEndian_mul_add, ih, UInt8.ofNat_toNat]

theorem abiWord_take {input : List UInt8} (hlong : 32 ≤ input.length) :
    abiWord (ofBigEndian (input.take 32)) = input.take 32 := by
  have hlength : (input.take 32).length = 32 := List.length_take_of_le hlong
  have hword := toBigEndian_ofBigEndian (input.take 32)
  rwa [hlength] at hword

/-- Zeros in front of a number that needs no more octets. -/
theorem toBigEndian_add (extra : ℕ) {size value : ℕ}
    (hvalue : value < 256 ^ size) :
    toBigEndian (extra + size) value =
      List.replicate extra 0 ++ toBigEndian size value := by
  induction extra with
  | zero => simp
  | succ extra ih =>
      have hzero : value / 256 ^ (extra + size) = 0 := by
        refine Nat.div_eq_of_lt (lt_of_lt_of_le hvalue ?_)
        exact Nat.pow_le_pow_right (by norm_num) (by omega)
      rw [Nat.succ_add, toBigEndian, hzero, ih]
      rfl

/-! ## Round trips -/

theorem abiDecodeTail_append (octets rest : List UInt8)
    (hsize : octets.length < 2 ^ 256) :
    abiDecodeTail (abiTail octets ++ rest) = some (octets, rest) := by
  have htake : (abiTail octets ++ rest).take 32 = abiWord octets.length := by
    rw [abiTail, List.append_assoc]
    exact List.take_left' (length_abiWord _)
  have hdrop : (abiTail octets ++ rest).drop 32 =
      octets ++ (abiPadding octets.length ++ rest) := by
    rw [abiTail, List.append_assoc, List.append_assoc]
    exact List.drop_left' (length_abiWord _)
  have hlong : 32 ≤ (abiTail octets ++ rest).length := by
    simp [abiTail]
  simp only [abiDecodeTail, htake, hdrop, ofBigEndian_abiWord hsize,
    List.take_left, List.drop_left, hlong, and_self, if_true]

theorem abiDecodeFrom_encode {frontier : ℕ} {args : List AbiArg}
    (hstatic : ∀ value, .static value ∈ args → value < 2 ^ 256)
    (hfits : frontier + (abiTails args).length < 2 ^ 256) :
    abiDecodeFrom frontier (args.map AbiArg.kind) (abiHeads frontier args)
      (abiTails args) = some args := by
  induction args generalizing frontier with
  | nil => simp [abiDecodeFrom, abiHeads, abiTails]
  | cons arg rest ih =>
      have hrest : ∀ value, .static value ∈ rest → value < 2 ^ 256 :=
        fun value hmem => hstatic value (List.mem_cons_of_mem _ hmem)
      cases arg with
      | static value =>
          have hword := ofBigEndian_abiWord (hstatic value List.mem_cons_self)
          have hlength := length_abiWord value
          simp only [List.map_cons, AbiArg.kind, abiDecodeFrom, abiHeads,
            abiTails, List.length_append, hlength, List.take_left' hlength,
            List.drop_left' hlength, hword]
          rw [if_neg (by omega), ih hrest hfits]
          rfl
      | dynamic octets =>
          rw [abiTails, List.length_append] at hfits
          have htail : octets.length ≤ (abiTail octets).length := by
            simp only [abiTail, List.length_append]
            omega
          have hword := ofBigEndian_abiWord
            (show frontier < 2 ^ 256 by omega)
          have hlength := length_abiWord frontier
          simp only [List.map_cons, AbiArg.kind, abiDecodeFrom, abiHeads,
            abiTails, List.length_append, hlength, List.take_left' hlength,
            List.drop_left' hlength, hword]
          rw [if_neg (by omega), abiDecodeTail_append _ _ (by omega)]
          simp only
          rw [ih hrest (by omega)]
          rfl

theorem length_abiHeads (frontier : ℕ) (args : List AbiArg) :
    (abiHeads frontier args).length = 32 * args.length := by
  induction args generalizing frontier with
  | nil => rfl
  | cons arg rest ih =>
      cases arg with
      | static value =>
          rw [abiHeads, List.length_append, length_abiWord, ih,
            List.length_cons]
          ring
      | dynamic octets =>
          rw [abiHeads, List.length_append, length_abiWord, ih,
            List.length_cons]
          ring

/-- The decoder reads back what was encoded. -/
theorem abiDecode_encode {args : List AbiArg}
    (hstatic : ∀ value, .static value ∈ args → value < 2 ^ 256)
    (hfits : 32 * args.length + (abiTails args).length < 2 ^ 256) :
    abiDecode (args.map AbiArg.kind) (abiEncode args) = some args := by
  have hlength := length_abiHeads (32 * args.length) args
  rw [abiDecode, abiEncode, List.length_map, List.take_left' hlength,
    List.drop_left' hlength]
  exact abiDecodeFrom_encode hstatic hfits

/-! ## Strictness -/

theorem abiDecodeTail_eq_some {input octets rest : List UInt8}
    (hdecode : abiDecodeTail input = some (octets, rest)) :
    abiTail octets ++ rest = input := by
  simp only [abiDecodeTail] at hdecode
  split at hdecode
  · rename_i hchecks
    obtain ⟨hlong, hsize, hpadding⟩ := hchecks
    cases hdecode
    have hrest := List.take_append_drop
      (abiPadding (ofBigEndian (input.take 32))).length
      ((input.drop 32).drop (ofBigEndian (input.take 32)))
    rw [hpadding] at hrest
    rw [abiTail, hsize, abiWord_take hlong, List.append_assoc,
      List.append_assoc, hrest, List.take_append_drop, List.take_append_drop]
  · cases hdecode

theorem abiDecodeFrom_eq_some {frontier : ℕ} {kinds : List AbiKind}
    {heads tails : List UInt8} {args : List AbiArg}
    (hdecode : abiDecodeFrom frontier kinds heads tails = some args) :
    args.map AbiArg.kind = kinds ∧ abiHeads frontier args = heads ∧
      abiTails args = tails := by
  induction kinds generalizing frontier heads tails args with
  | nil =>
      simp only [abiDecodeFrom] at hdecode
      split at hdecode
      · rename_i hempty
        cases hdecode
        exact ⟨rfl, hempty.1.symm, hempty.2.symm⟩
      · cases hdecode
  | cons kind kinds ih =>
      cases kind with
      | static =>
          simp only [abiDecodeFrom] at hdecode
          split at hdecode
          · cases hdecode
          · rename_i hshort
            obtain ⟨rest, hrest, rfl⟩ := Option.map_eq_some_iff.mp hdecode
            obtain ⟨hkinds, hheads, htails⟩ := ih hrest
            refine ⟨?_, ?_, htails⟩
            · rw [List.map_cons, hkinds]
              rfl
            · rw [abiHeads, hheads, abiWord_take (Nat.le_of_not_lt hshort),
                List.take_append_drop]
      | dynamic =>
          simp only [abiDecodeFrom] at hdecode
          split at hdecode
          · cases hdecode
          · rename_i hhead
            rw [not_or, not_not] at hhead
            split at hdecode
            · cases hdecode
            · rename_i octets left htail
              obtain ⟨rest, hrest, rfl⟩ := Option.map_eq_some_iff.mp hdecode
              obtain ⟨hkinds, hheads, htails⟩ := ih hrest
              refine ⟨?_, ?_, ?_⟩
              · rw [List.map_cons, hkinds]
                rfl
              · rw [abiHeads, hheads, ← hhead.2,
                  abiWord_take (Nat.le_of_not_lt hhead.1),
                  List.take_append_drop]
              · rw [abiTails, htails, abiDecodeTail_eq_some htail]

/-- What the decoder accepts is the encoding of what it answers. -/
theorem abiDecode_eq_some {kinds : List AbiKind} {input : List UInt8}
    {args : List AbiArg} (hdecode : abiDecode kinds input = some args) :
    args.map AbiArg.kind = kinds ∧ abiEncode args = input := by
  obtain ⟨hkinds, hheads, htails⟩ := abiDecodeFrom_eq_some hdecode
  have hlength : args.length = kinds.length := by
    rw [← hkinds, List.length_map]
  rw [abiEncode, hlength, hheads, htails]
  exact ⟨hkinds, List.take_append_drop _ _⟩

end HoprStrategy.Library
