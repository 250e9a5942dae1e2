import HoprStrategy.CurvyCatchUp
import HoprStrategy.CurvySweep
import HoprStrategy.NoteSelection
import HoprStrategy.Library.DecimalText
import HoprStrategy.Library.FixedLayout
import Mathlib.Tactic

/-!
# The octets of the recovery state

An owned note is stored as 344 octets, a cursor as four 64-bit numbers and the
text of its block hash.  A note without a leaf index is stored with the largest
64-bit value in its place, and a cursor without a hash as one of no length.
-/

namespace HoprStrategy.Curvy

open Library

def pixAddressIdSize : ℕ := 14

def ownedNoteVersion : UInt8 := 1

def ownedNoteSize : ℕ := 344

def cursorSizeWithoutHash : ℕ := 32

/-- The encodings of `hopr_api` and of `curvy-core`, each of which reads back
what it wrote. -/
structure RecordCodec (Id Addr Fr : Type) where
  id : FixedCodec Id pixAddressIdSize
  address : FixedCodec Addr 32
  field : FixedCodec Fr 32

section

variable {Id Addr Fr : Type} (codec : RecordCodec Id Addr Fr)

/-! ## Owned notes -/

def recordPieces (record : OwnedNoteRecord Id Addr (CurvyNote Fr)) :
    List (List UInt8) :=
  [[ownedNoteVersion],
    codec.id.encode record.detected.deposit.id,
    codec.address.encode record.detected.deposit.address,
    toBigEndian 32 record.detected.deposit.amount.wei,
    codec.field.encode record.detected.note.amount,
    codec.field.encode record.detected.note.token,
    codec.field.encode record.detected.note.ownerPub.1,
    codec.field.encode record.detected.note.ownerPub.2,
    codec.field.encode record.detected.note.sharedSecret,
    codec.field.encode record.detected.note.ephemeralKey.1,
    codec.field.encode record.detected.note.ephemeralKey.2,
    codec.field.encode record.detected.note.viewTag,
    [if record.committed then 1 else 0],
    toBigEndian 8 record.rawLeafIndex.toNat]

def writeRecord (record : OwnedNoteRecord Id Addr (CurvyNote Fr)) :
    List UInt8 :=
  (recordPieces codec record).flatten

/-- `encode_owned_note`. -/
def encodeOwnedNoteOctets (note : StoredOwnedNote Id Addr (CurvyNote Fr)) :
    List UInt8 :=
  writeRecord codec (encodeOwnedNote note)

/-- `U256::from_be_bytes`. -/
def balanceOfOctets (octets : List UInt8) : HoprBalance :=
  ⟨ofBigEndian octets % 2 ^ 256, Nat.mod_lt _ (Nat.two_pow_pos _)⟩

def decodeNoteField (encoded : List UInt8) (offset : ℕ) (name : String) :
    Except CurvyStateError Fr :=
  (codec.field.decode (slice encoded offset 32)).mapError fun _ =>
    .corrupt ("owned-note " ++ name ++
      " is not a canonical BN254 field element")

def decodeCommitted (flag : UInt8) : Except CurvyStateError Bool :=
  if flag = 0 then .ok false
  else if flag = 1 then .ok true
  else .error (.corrupt ("invalid owned-note committed flag " ++
    toString flag.toNat))

/-- Everything `decode_owned_note` reads, up to the comparison of the flag with
the leaf index. -/
def readRecord (encoded : List UInt8) :
    Except CurvyStateError (OwnedNoteRecord Id Addr (CurvyNote Fr)) := do
  if encoded.length ≠ ownedNoteSize then
    throw (.corrupt ("owned-note record has " ++ toString encoded.length ++
      " bytes, expected " ++ toString ownedNoteSize))
  else if encoded.headD 0 ≠ ownedNoteVersion then
    throw (.corrupt ("unsupported owned-note record version " ++
      toString (encoded.headD 0).toNat))
  else
    let id ← (codec.id.decode (slice encoded 1 pixAddressIdSize)).mapError
      fun error => .corrupt ("invalid PIX allocation ID: " ++ error)
    let address ← (codec.address.decode (slice encoded 15 32)).mapError
      fun error => .corrupt ("invalid BJJ address: " ++ error)
    let amount := balanceOfOctets (slice encoded 47 32)
    let noteAmount ← decodeNoteField codec encoded 79 "amount"
    let token ← decodeNoteField codec encoded 111 "token"
    let ownerX ← decodeNoteField codec encoded 143 "owner x"
    let ownerY ← decodeNoteField codec encoded 175 "owner y"
    let sharedSecret ← decodeNoteField codec encoded 207 "shared secret"
    let ephemeralX ← decodeNoteField codec encoded 239 "ephemeral key x"
    let ephemeralY ← decodeNoteField codec encoded 271 "ephemeral key y"
    let viewTag ← decodeNoteField codec encoded 303 "view tag"
    let committed ← decodeCommitted ((slice encoded 335 1).headD 0)
    let rawLeafIndex := UInt64.ofNat (ofBigEndian (slice encoded 336 8))
    return ⟨⟨⟨id, address, amount⟩, ⟨(ownerX, ownerY), sharedSecret,
      (ephemeralX, ephemeralY), viewTag, noteAmount, token⟩⟩, committed,
      rawLeafIndex⟩

/-- `decode_owned_note`. -/
def decodeOwnedNoteOctets (encoded : List UInt8) :
    Except CurvyStateError (StoredOwnedNote Id Addr (CurvyNote Fr)) := do
  let record ← readRecord codec encoded
  decodeOwnedNote record

variable {codec}

theorem length_writeRecord
    (record : OwnedNoteRecord Id Addr (CurvyNote Fr)) :
    (writeRecord codec record).length = ownedNoteSize := by
  simp [writeRecord, recordPieces, pixAddressIdSize, ownedNoteSize]

/-- Each piece of a record is read at its offset. -/
theorem slice_writeRecord
    {record : OwnedNoteRecord Id Addr (CurvyNote Fr)}
    (index : ℕ) {offset size : ℕ} {piece : List UInt8}
    (hpiece : (recordPieces codec record)[index]? = some piece)
    (hoffset : (([1, pixAddressIdSize, 32, 32, 32, 32, 32, 32, 32, 32, 32, 32,
      1, 8] : List ℕ).take index).sum = offset)
    (hsize : piece.length = size) :
    slice (writeRecord codec record) offset size = piece := by
  apply slice_flatten index hpiece _ hsize
  rw [← hoffset, List.map_take]
  apply congrArg fun lengths : List ℕ => (lengths.take index).sum
  simp [recordPieces]

theorem decodeNoteField_writeRecord
    {record : OwnedNoteRecord Id Addr (CurvyNote Fr)} (index : ℕ)
    {offset : ℕ} (name : String) {value : Fr}
    (hpiece : (recordPieces codec record)[index]? =
      some (codec.field.encode value))
    (hoffset : (([1, pixAddressIdSize, 32, 32, 32, 32, 32, 32, 32, 32, 32, 32,
      1, 8] : List ℕ).take index).sum = offset) :
    decodeNoteField codec (writeRecord codec record) offset name =
      .ok value := by
  unfold decodeNoteField
  rw [slice_writeRecord index hpiece hoffset
      (codec.field.length_encode value),
    codec.field.decode_encode]
  rfl

theorem balanceOfOctets_toBigEndian (balance : HoprBalance) :
    balanceOfOctets (toBigEndian 32 balance.wei) = balance := by
  apply HoprBalance.ext
  have hbound := balance.bound
  simp only [balanceOfOctets, ofBigEndian_toBigEndian]
  rw [Nat.mod_eq_of_lt (a := balance.wei % 256 ^ 32),
    Nat.mod_eq_of_lt] <;> omega

theorem ofBigEndian_leafIndex (index : UInt64) :
    UInt64.ofNat (ofBigEndian (toBigEndian 8 index.toNat)) = index := by
  rw [ofBigEndian_toBigEndian]
  have hbound := index.toNat_lt
  rw [Nat.mod_eq_of_lt (by omega)]
  exact UInt64.ofNat_toNat

/-- Every record is read back as it was written. -/
theorem readRecord_writeRecord
    (record : OwnedNoteRecord Id Addr (CurvyNote Fr)) :
    readRecord codec (writeRecord codec record) = .ok record := by
  have hhead : (writeRecord codec record).headD 0 = ownedNoteVersion := rfl
  have hid : slice (writeRecord codec record) 1 pixAddressIdSize = _ :=
    slice_writeRecord 1 rfl rfl (codec.id.length_encode _)
  have haddress : slice (writeRecord codec record) 15 32 = _ :=
    slice_writeRecord 2 rfl rfl (codec.address.length_encode _)
  have hamount : slice (writeRecord codec record) 47 32 = _ :=
    slice_writeRecord 3 rfl rfl (length_toBigEndian 32 _)
  have hflag : slice (writeRecord codec record) 335 1 = _ :=
    slice_writeRecord 12 rfl rfl rfl
  have hleaf : slice (writeRecord codec record) 336 8 = _ :=
    slice_writeRecord 13 rfl rfl (length_toBigEndian 8 _)
  have hnoteAmount : decodeNoteField codec (writeRecord codec record) 79
      "amount" = .ok record.detected.note.amount :=
    decodeNoteField_writeRecord 4 _ rfl rfl
  have htoken : decodeNoteField codec (writeRecord codec record) 111
      "token" = .ok record.detected.note.token :=
    decodeNoteField_writeRecord 5 _ rfl rfl
  have hownerX : decodeNoteField codec (writeRecord codec record) 143
      "owner x" = .ok record.detected.note.ownerPub.1 :=
    decodeNoteField_writeRecord 6 _ rfl rfl
  have hownerY : decodeNoteField codec (writeRecord codec record) 175
      "owner y" = .ok record.detected.note.ownerPub.2 :=
    decodeNoteField_writeRecord 7 _ rfl rfl
  have hsecret : decodeNoteField codec (writeRecord codec record) 207
      "shared secret" = .ok record.detected.note.sharedSecret :=
    decodeNoteField_writeRecord 8 _ rfl rfl
  have hephemeralX : decodeNoteField codec (writeRecord codec record) 239
      "ephemeral key x" = .ok record.detected.note.ephemeralKey.1 :=
    decodeNoteField_writeRecord 9 _ rfl rfl
  have hephemeralY : decodeNoteField codec (writeRecord codec record) 271
      "ephemeral key y" = .ok record.detected.note.ephemeralKey.2 :=
    decodeNoteField_writeRecord 10 _ rfl rfl
  have hviewTag : decodeNoteField codec (writeRecord codec record) 303
      "view tag" = .ok record.detected.note.viewTag :=
    decodeNoteField_writeRecord 11 _ rfl rfl
  have hcommitted : decodeCommitted (([if record.committed then 1 else 0] :
      List UInt8).headD 0) = .ok record.committed := by
    cases record.committed <;> rfl
  unfold readRecord
  rw [if_neg fun hne => hne (length_writeRecord record),
    if_neg fun hne => hne hhead, hid, haddress, hamount, hflag, hleaf,
    hnoteAmount, htoken, hownerX, hownerY, hsecret, hephemeralX, hephemeralY,
    hviewTag, hcommitted, codec.id.decode_encode, codec.address.decode_encode,
    balanceOfOctets_toBigEndian, ofBigEndian_leafIndex]
  rfl

theorem decodeOwnedNoteOctets_encode
    (note : StoredOwnedNote Id Addr (CurvyNote Fr)) :
    decodeOwnedNoteOctets codec (encodeOwnedNoteOctets codec note) =
      decodeOwnedNote (encodeOwnedNote note) := by
  unfold decodeOwnedNoteOctets encodeOwnedNoteOctets
  rw [readRecord_writeRecord]
  rfl

end

/-! ## Cursors -/

/-- `CurvyEventCursor` as the client has it: numbers as text, and the hash of
the block if it is known. -/
structure CurvyCursorText where
  block : String
  transactionIndex : String
  logIndex : String
  eventItemIndex : String
  blockHash : Option String
  deriving DecidableEq

/-- `CurvyEventCursor::new`. -/
def CurvyCursorText.new (block transactionIndex logIndex eventItemIndex : ℕ) :
    CurvyCursorText :=
  ⟨toString block, toString transactionIndex, toString logIndex,
    toString eventItemIndex, none⟩

def cursorComponent (value name : String) : Except CurvyStateError ℕ :=
  match parseUnsigned 64 value with
  | .ok number => .ok number.toNat
  | .error error => .error (.corrupt ("invalid Curvy cursor " ++ name ++
      ": " ++ error.text))

def textOctets (text : String) : List UInt8 := text.toByteArray.data.toList

def textOfOctets (octets : List UInt8) : Option String :=
  String.fromUTF8? ⟨octets.toArray⟩

structure Utf8Error where
  validUpTo : ℕ
  errorLen : Option ℕ
  deriving DecidableEq

def Utf8Error.text (error : Utf8Error) : String :=
  match error.errorLen with
  | some length => "invalid utf-8 sequence of " ++ toString length ++
      " bytes from index " ++ toString error.validUpTo
  | none => "incomplete utf-8 byte sequence from index " ++
      toString error.validUpTo

/-- The bounds of the octets which follow the first one of a character. -/
def followingOctets (first : ℕ) : Option (List (ℕ × ℕ)) :=
  let continued := (0x80, 0xBF)
  if first < 0x80 then some []
  else if first < 0xC2 then none
  else if first < 0xE0 then some [continued]
  else if first = 0xE0 then some [(0xA0, 0xBF), continued]
  else if first = 0xED then some [(0x80, 0x9F), continued]
  else if first < 0xF0 then some [continued, continued]
  else if first = 0xF0 then some [(0x90, 0xBF), continued, continued]
  else if first < 0xF4 then some [continued, continued, continued]
  else if first = 0xF4 then some [(0x80, 0x8F), continued, continued]
  else none

/-- How many octets fit up to the first one which does not, if there is one. -/
def misfit (read : ℕ) : List (ℕ × ℕ) → List UInt8 → Option ℕ
  | bounds :: expected, octet :: rest =>
      if bounds.1 ≤ octet.toNat ∧ octet.toNat ≤ bounds.2 then
        misfit (read + 1) expected rest
      else some read
  | _, [] => none
  | [], _ :: _ => some read

/-- Where octets stop being text, and how many of them begin no character. -/
def utf8Error (octets : List UInt8) : Utf8Error :=
  let validUpTo := ((List.range octets.length).reverse.find? fun length =>
    (textOfOctets (octets.take length)).isSome).getD 0
  let rest := octets.drop validUpTo
  { validUpTo
    errorLen := match followingOctets (rest.headD 0).toNat with
      | some expected => misfit 1 expected rest.tail
      | none => some 1 }

/-- `String::from_utf8`. -/
def fromUtf8 (octets : List UInt8) : Except Utf8Error String :=
  match textOfOctets octets with
  | some text => .ok text
  | none => .error (utf8Error octets)

def encodeCursor (cursor : CurvyCursorText) :
    Except CurvyStateError (List UInt8) := do
  let block ← cursorComponent cursor.block "block"
  let transactionIndex ←
    cursorComponent cursor.transactionIndex "transaction index"
  let logIndex ← cursorComponent cursor.logIndex "log index"
  let eventItemIndex ←
    cursorComponent cursor.eventItemIndex "event item index"
  return [toBigEndian 8 block, toBigEndian 8 transactionIndex,
    toBigEndian 8 logIndex, toBigEndian 8 eventItemIndex,
    (cursor.blockHash.map textOctets).getD []].flatten

def decodeCursor (encoded : List UInt8) :
    Except CurvyStateError CurvyCursorText :=
  if encoded.length < cursorSizeWithoutHash then
    .error (.corrupt ("Curvy cursor has " ++ toString encoded.length ++
      " bytes, expected at least " ++ toString cursorSizeWithoutHash))
  else
    let readU64 := fun offset => ofBigEndian (slice encoded offset 8)
    let cursor := CurvyCursorText.new (readU64 0) (readU64 8) (readU64 16)
      (readU64 24)
    if cursorSizeWithoutHash < encoded.length then
      match fromUtf8 (encoded.drop cursorSizeWithoutHash) with
      | .ok hash => .ok { cursor with blockHash := some hash }
      | .error error => .error (.corrupt
          ("cursor block hash is not UTF-8: " ++ error.text))
    else .ok cursor

/-- A number in the spelling the client gives it. -/
def CanonicalU64 (text : String) : Prop :=
  ∃ number : UInt64, text = toString number.toNat

/-- A cursor whose numbers are spelled as numbers, and whose hash is not
empty. -/
structure CurvyCursorText.Canonical (cursor : CurvyCursorText) : Prop where
  block : CanonicalU64 cursor.block
  transactionIndex : CanonicalU64 cursor.transactionIndex
  logIndex : CanonicalU64 cursor.logIndex
  eventItemIndex : CanonicalU64 cursor.eventItemIndex
  blockHash : cursor.blockHash ≠ some ""

/-- The digits of `parseU64` are read as a number of 64 bits. -/
theorem parseDigits_u64 {digits : List Char} (hnonempty : digits ≠ []) :
    (if digits.isEmpty ∨ ¬ digits.all Char.isDigit then none
      else
        let value := digits.foldl
          (fun value digit => 10 * value + (digit.toNat - '0'.toNat)) 0
        if value < 2 ^ 64 then some (UInt64.ofNat value) else none) =
      (parseDigits (⟨0, Nat.two_pow_pos _⟩ : Word 64) digits).toOption.map
        fun word => UInt64.ofNat word.toNat := by
  have hread := congrArg (Option.map UInt64.ofNat)
    (@parseDigits_toOption 64 digits)
  rw [Option.map_map, apply_ite (Option.map UInt64.ofNat)] at hread
  have hvalue : digits.foldl
      (fun value digit => 10 * value + (digit.toNat - '0'.toNat)) 0 =
        decimalValue digits := by
    apply congrArg fun append => digits.foldl append 0
    funext value digit
    exact congrArg (· + _) (Nat.mul_comm _ _)
  refine Eq.trans ?_ hread.symm
  dsimp only
  rw [hvalue, List.isEmpty_eq_false_iff.mpr hnonempty]
  by_cases hdigits : digits.all Char.isDigit = true <;> simp [hdigits]

/-- A number which is read is the one `parseU64` has. -/
theorem parseU64_eq (text : String) :
    parseU64 text = (parseUnsigned 64 text).toOption.map
      fun word => UInt64.ofNat word.toNat := by
  cases htext : text.toList with
  | nil =>
      unfold parseU64 parseUnsigned
      rw [htext]
      rfl
  | cons first rest =>
      by_cases hplus : first = '+'
      · subst hplus
        unfold parseU64 parseUnsigned
        rw [htext]
        cases rest with
        | nil => rfl
        | cons digit rest => exact parseDigits_u64 (List.cons_ne_nil _ _)
      · rw [parseUnsigned_of_digits htext hplus]
        unfold parseU64
        dsimp only
        rw [htext]
        split
        · next heq => exact absurd (List.cons.inj heq).1 hplus
        · exact parseDigits_u64 (List.cons_ne_nil _ _)

theorem parseU64_of_digits {text : String} {digits : List Char}
    (htext : text.toList = digits) (hnonempty : digits ≠ [])
    (hdigits : ∀ digit ∈ digits, digit.isDigit = true) :
    parseU64 text =
      if Nat.ofDigitChars 10 digits 0 < 2 ^ 64 then
        some (UInt64.ofNat (Nat.ofDigitChars 10 digits 0))
      else none := by
  cases digits with
  | nil => exact absurd rfl hnonempty
  | cons first rest =>
      have hfirst : first ≠ '+' := by
        intro hplus
        have hdigit := hdigits first List.mem_cons_self
        rw [hplus] at hdigit
        cases hdigit
      have hall : (first :: rest).all Char.isDigit = true :=
        List.all_eq_true.mpr hdigits
      unfold parseU64
      rw [htext]
      rw [Nat.ofDigitChars_eq_foldl]
      dsimp only
      split
      · next heq => exact absurd (List.cons.inj heq).1 hfirst
      · rw [if_neg (by rw [hall]; simp)]

/-- A number is read back from its spelling. -/
theorem parseU64_toString (number : UInt64) :
    parseU64 (toString number.toNat) = some number := by
  have htext : (toString number.toNat).toList =
      Nat.toDigits 10 number.toNat := by
    rw [Nat.toString_eq_repr, Nat.repr_eq_ofList_toDigits,
      String.toList_ofList]
  have hdigits : ∀ digit ∈ Nat.toDigits 10 number.toNat,
      digit.isDigit = true := fun digit hdigit =>
    Nat.isDigit_of_mem_toDigits (by norm_num) (by norm_num) hdigit
  rw [parseU64_of_digits htext Nat.toDigits_ne_nil hdigits,
    Nat.ofDigitChars_ten_toDigits, if_pos number.toNat_lt,
    UInt64.ofNat_toNat]

theorem fromUtf8_textOctets (text : String) :
    fromUtf8 (textOctets text) = .ok text := by
  have htext : textOfOctets (textOctets text) = some text := by
    unfold textOfOctets textOctets
    rw [Array.toArray_toList]
    exact dif_pos text.isValidUTF8
  unfold fromUtf8
  rw [htext]

theorem textOctets_eq_nil {text : String} :
    textOctets text = [] ↔ text = "" := by
  rw [← String.utf8ByteSize_eq_zero_iff, textOctets, ← List.length_eq_zero_iff]
  rfl

theorem cursorComponent_ok {value name : String} {number : ℕ}
    (h : cursorComponent value name = .ok number) :
    ∃ parsed : UInt64, parseU64 value = some parsed ∧
      number = parsed.toNat := by
  unfold cursorComponent at h
  rw [parseU64_eq]
  cases hparse : parseUnsigned 64 value with
  | error error =>
      rw [hparse] at h
      cases h
  | ok word =>
      rw [hparse] at h
      cases h
      exact ⟨_, rfl, (UInt64.toNat_ofNat_of_lt' word.bound).symm⟩

section

variable (block transactionIndex logIndex eventItemIndex : UInt64)

/-- The octets of a cursor with these numbers and this hash. -/
def cursorOctets (hash : List UInt8) : List UInt8 :=
  [toBigEndian 8 block.toNat, toBigEndian 8 transactionIndex.toNat,
    toBigEndian 8 logIndex.toNat, toBigEndian 8 eventItemIndex.toNat,
    hash].flatten

variable {block transactionIndex logIndex eventItemIndex}

theorem length_cursorOctets (hash : List UInt8) :
    (cursorOctets block transactionIndex logIndex eventItemIndex hash).length =
      cursorSizeWithoutHash + hash.length := by
  simp [cursorOctets, cursorSizeWithoutHash]
  omega

theorem ofBigEndian_number (number : UInt64) :
    ofBigEndian (toBigEndian 8 number.toNat) = number.toNat := by
  have hbound := number.toNat_lt
  rw [ofBigEndian_toBigEndian, Nat.mod_eq_of_lt (by omega)]

/-- The numbers of a cursor, whatever follows them. -/
theorem readNumbers_cursorOctets (hash : List UInt8) :
    CurvyCursorText.new
      (ofBigEndian (slice (cursorOctets block transactionIndex logIndex
        eventItemIndex hash) 0 8))
      (ofBigEndian (slice (cursorOctets block transactionIndex logIndex
        eventItemIndex hash) 8 8))
      (ofBigEndian (slice (cursorOctets block transactionIndex logIndex
        eventItemIndex hash) 16 8))
      (ofBigEndian (slice (cursorOctets block transactionIndex logIndex
        eventItemIndex hash) 24 8)) =
    CurvyCursorText.new block.toNat transactionIndex.toNat logIndex.toNat
      eventItemIndex.toNat := by
  have hblock : slice (cursorOctets block transactionIndex logIndex
      eventItemIndex hash) 0 8 = _ :=
    slice_flatten 0 rfl rfl (length_toBigEndian 8 _)
  have htransaction : slice (cursorOctets block transactionIndex logIndex
      eventItemIndex hash) 8 8 = _ :=
    slice_flatten 1 rfl rfl (length_toBigEndian 8 _)
  have hlog : slice (cursorOctets block transactionIndex logIndex
      eventItemIndex hash) 16 8 = _ :=
    slice_flatten 2 rfl rfl (length_toBigEndian 8 _)
  have hitem : slice (cursorOctets block transactionIndex logIndex
      eventItemIndex hash) 24 8 = _ :=
    slice_flatten 3 rfl rfl (length_toBigEndian 8 _)
  rw [hblock, htransaction, hlog, hitem, ofBigEndian_number,
    ofBigEndian_number, ofBigEndian_number, ofBigEndian_number]

theorem drop_cursorOctets (hash : List UInt8) :
    (cursorOctets block transactionIndex logIndex eventItemIndex hash).drop
      cursorSizeWithoutHash = hash := by
  have hsplit : cursorOctets block transactionIndex logIndex eventItemIndex
      hash = cursorOctets block transactionIndex logIndex eventItemIndex [] ++
        hash := by simp [cursorOctets]
  have hlength : (cursorOctets block transactionIndex logIndex eventItemIndex
      []).length = cursorSizeWithoutHash := length_cursorOctets []
  rw [hsplit]
  exact List.drop_left' hlength

/-- The numbers of a cursor are read at their offsets. -/
theorem decodeCursor_cursorOctets_nil :
    decodeCursor (cursorOctets block transactionIndex logIndex eventItemIndex
      []) = .ok (CurvyCursorText.new block.toNat transactionIndex.toNat
        logIndex.toNat eventItemIndex.toNat) := by
  unfold decodeCursor
  rw [length_cursorOctets]
  simp only [readNumbers_cursorOctets, List.length_nil, Nat.add_zero,
    Nat.lt_irrefl, if_false]

/-- A hash of some length is read as well. -/
theorem decodeCursor_cursorOctets {hash : String} (hhash : hash ≠ "") :
    decodeCursor (cursorOctets block transactionIndex logIndex eventItemIndex
      (textOctets hash)) = .ok { CurvyCursorText.new block.toNat
        transactionIndex.toNat logIndex.toNat eventItemIndex.toNat with
          blockHash := some hash } := by
  have hlength : 0 < (textOctets hash).length :=
    List.length_pos_iff.mpr fun hnil => hhash (textOctets_eq_nil.mp hnil)
  unfold decodeCursor
  rw [length_cursorOctets, if_neg (by omega)]
  simp only [readNumbers_cursorOctets]
  rw [if_pos (by omega), drop_cursorOctets, fromUtf8_textOctets]

end

theorem encodeCursor_ok {cursor : CurvyCursorText} {encoded : List UInt8}
    (h : encodeCursor cursor = .ok encoded) :
    ∃ block transactionIndex logIndex eventItemIndex : UInt64,
      parseU64 cursor.block = some block ∧
      parseU64 cursor.transactionIndex = some transactionIndex ∧
      parseU64 cursor.logIndex = some logIndex ∧
      parseU64 cursor.eventItemIndex = some eventItemIndex ∧
      encoded = cursorOctets block transactionIndex logIndex eventItemIndex
        ((cursor.blockHash.map textOctets).getD []) := by
  unfold encodeCursor at h
  obtain ⟨block, hblock, h⟩ := bind_eq_ok.mp h
  obtain ⟨transactionIndex, htransaction, h⟩ := bind_eq_ok.mp h
  obtain ⟨logIndex, hlog, h⟩ := bind_eq_ok.mp h
  obtain ⟨eventItemIndex, hitem, h⟩ := bind_eq_ok.mp h
  cases h
  obtain ⟨parsedBlock, hparsedBlock, rfl⟩ := cursorComponent_ok hblock
  obtain ⟨parsedTransaction, hparsedTransaction, rfl⟩ :=
    cursorComponent_ok htransaction
  obtain ⟨parsedLog, hparsedLog, rfl⟩ := cursorComponent_ok hlog
  obtain ⟨parsedItem, hparsedItem, rfl⟩ := cursorComponent_ok hitem
  exact ⟨parsedBlock, parsedTransaction, parsedLog, parsedItem, hparsedBlock,
    hparsedTransaction, hparsedLog, hparsedItem, rfl⟩

/-- The spelling of a number which was read is the one it is written in. -/
theorem canonicalU64_iff {text : String} {number : UInt64}
    (hparse : parseU64 text = some number) :
    toString number.toNat = text ↔ CanonicalU64 text := by
  constructor
  · intro htext
    exact ⟨number, htext.symm⟩
  · rintro ⟨spelled, rfl⟩
    rw [parseU64_toString, Option.some.injEq] at hparse
    rw [hparse]

/-- A cursor is read back as it was exactly when its numbers are spelled as
numbers and its hash is not empty. -/
theorem decodeCursor_iff {cursor : CurvyCursorText} {encoded : List UInt8}
    (hencode : encodeCursor cursor = .ok encoded) :
    decodeCursor encoded = .ok cursor ↔ cursor.Canonical := by
  obtain ⟨block, transactionIndex, logIndex, eventItemIndex, hblock,
    htransaction, hlog, hitem, rfl⟩ := encodeCursor_ok hencode
  have hnumbers : (toString block.toNat = cursor.block ∧
      toString transactionIndex.toNat = cursor.transactionIndex ∧
      toString logIndex.toNat = cursor.logIndex ∧
      toString eventItemIndex.toNat = cursor.eventItemIndex ∧
      cursor.blockHash ≠ some "") ↔ cursor.Canonical := by
    rw [canonicalU64_iff hblock, canonicalU64_iff htransaction,
      canonicalU64_iff hlog, canonicalU64_iff hitem]
    exact ⟨fun h => ⟨h.1, h.2.1, h.2.2.1, h.2.2.2.1, h.2.2.2.2⟩,
      fun h => ⟨h.block, h.transactionIndex, h.logIndex, h.eventItemIndex,
        h.blockHash⟩⟩
  rw [← hnumbers]
  cases cursor with
  | mk blockText transactionText logText itemText hash =>
      cases hash with
      | none =>
          simp only [Option.map_none, Option.getD_none,
            decodeCursor_cursorOctets_nil, CurvyCursorText.new,
            Except.ok.injEq, CurvyCursorText.mk.injEq]
          simp
      | some hash =>
          by_cases hempty : hash = ""
          · have hnil := textOctets_eq_nil.mpr hempty
            simp only [Option.map_some, Option.getD_some, hnil,
              decodeCursor_cursorOctets_nil, CurvyCursorText.new,
              Except.ok.injEq, CurvyCursorText.mk.injEq]
            simp [hempty]
          · simp only [Option.map_some, Option.getD_some,
              decodeCursor_cursorOctets hempty, CurvyCursorText.new,
              Except.ok.injEq, CurvyCursorText.mk.injEq]
            simp [hempty]

/-! ## Which notes are read back -/

/-- A note whose flag says whether it has a leaf index, other than the one
which stands for none. -/
structure StoredOwnedNote.Readable {Id Addr Note : Type}
    (note : StoredOwnedNote Id Addr Note) : Prop where
  flag : note.committed = note.leafIndex.isSome
  leafIndex : note.leafIndex ≠ some (-1)

theorem decodeOwnedNote_iff {Id Addr Note : Type}
    {note : StoredOwnedNote Id Addr Note} :
    decodeOwnedNote (encodeOwnedNote note) = .ok note ↔ note.Readable := by
  cases note with
  | mk detected committed leafIndex =>
      unfold decodeOwnedNote encodeOwnedNote
      cases leafIndex with
      | none =>
          constructor
          · intro hdecode
            cases committed with
            | false => exact ⟨rfl, by simp⟩
            | true => simp at hdecode
          · rintro ⟨hflag, -⟩
            have hpending : committed = false := hflag
            simp [hpending]
      | some leafIndex =>
          by_cases hlast : leafIndex = -1
          · constructor
            · intro hdecode
              cases committed <;> simp [hlast] at hdecode
            · intro hreadable
              exact absurd (by rw [hlast]) hreadable.leafIndex
          · constructor
            · intro hdecode
              cases committed with
              | false => simp [hlast] at hdecode
              | true => exact ⟨rfl, by simpa using hlast⟩
            · rintro ⟨hflag, -⟩
              have hcommitted : committed = true := hflag
              simp [hcommitted, hlast]

namespace CurvyDepositState

variable {Id Addr Field Note : Type} [DecidableEq Id] [DecidableEq Field]
  {state after : CurvyDepositState Id Addr Field Note}

/-- Every record is that of a note which is read back. -/
def AllReadable (state : CurvyDepositState Id Addr Field Note) : Prop :=
  ∀ key record, state.ownedNotes.lookup key = some record →
    ∃ note : StoredOwnedNote Id Addr Note, note.Readable ∧
      record = encodeOwnedNote note

theorem AllReadable.empty :
    (empty : CurvyDepositState Id Addr Field Note).AllReadable := by
  intro key record hlookup
  cases hlookup

theorem AllReadable.of_insert (hstate : state.AllReadable) {key : Id × Field}
    (note : StoredOwnedNote Id Addr Note) (hnote : note.Readable)
    (hafter : after.ownedNotes =
      state.ownedNotes.insert key (encodeOwnedNote note)) :
    after.AllReadable := by
  intro other record hlookup
  rw [hafter] at hlookup
  by_cases hkey : other = key
  · rw [hkey, AList.lookup_insert, Option.some.injEq] at hlookup
    exact ⟨note, hnote, hlookup.symm⟩
  · rw [AList.lookup_insert_ne hkey] at hlookup
    exact hstate other record hlookup

theorem AllReadable.recordOwnedCandidate (hstate : state.AllReadable)
    (key : Field) (note : DetectedCurvyNote Id Addr Note)
    (cursor : CurvyEventCursor) :
    (state.recordOwnedCandidate key note cursor).AllReadable := by
  by_cases hnew :
      (state.ownedNotes.lookup (note.deposit.id, key)).isNone = true
  · apply hstate.of_insert ⟨note, false, none⟩ ⟨rfl, by simp⟩
    unfold CurvyDepositState.recordOwnedCandidate
    simp only
    rw [if_pos hnew]
  · have hsame : (state.recordOwnedCandidate key note cursor).ownedNotes =
        state.ownedNotes := by
      unfold CurvyDepositState.recordOwnedCandidate
      simp only
      rw [if_neg hnew]
    intro other record hlookup
    rw [hsame] at hlookup
    exact hstate other record hlookup

theorem AllReadable.recordCompletion (hstate : state.AllReadable)
    {key : Field} {leafIndex : UInt64} (hleaf : leafIndex ≠ -1)
    {cursor : CurvyEventCursor}
    {committed : Option (CommittedCurvyNote Id Addr Note)}
    (hrecord : state.recordCompletion key leafIndex cursor =
      .ok (after, committed)) : after.AllReadable := by
  rcases recordCompletion_ok hrecord with ⟨rfl, -, -⟩ |
    ⟨id, record, note, -, -, -, rfl, -⟩
  · exact hstate
  · exact hstate.of_insert ⟨record.detected, true, some leafIndex⟩
      ⟨rfl, by simpa using hleaf⟩ rfl

theorem AllReadable.removeSpentNotes (hstate : state.AllReadable) (id : Id)
    (noteIds : List Field) : (state.removeSpentNotes id noteIds).AllReadable := by
  have herased : ∀ (notes : Table (Id × Field) (OwnedNoteRecord Id Addr Note))
      key record,
      (noteIds.foldl (fun notes noteId => notes.erase (id, noteId))
        notes).lookup key = some record → notes.lookup key = some record := by
    induction noteIds with
    | nil => exact fun notes key record hlookup => hlookup
    | cons noteId rest ih =>
        intro notes key record hlookup
        have hrest := ih (notes.erase (id, noteId)) key record hlookup
        by_cases hkey : key = (id, noteId)
        · rw [hkey, AList.lookup_erase] at hrest
          cases hrest
        · rwa [AList.lookup_erase_ne hkey] at hrest
  intro key record hlookup
  exact hstate key record (herased _ key record hlookup)

/-- The records of an allocation are those of readable notes. -/
theorem AllReadable.sessionRecords (hstate : state.AllReadable) (id : Id) :
    ∃ notes : List (StoredOwnedNote Id Addr Note),
      state.sessionRecords id = notes.map encodeOwnedNote ∧
        ∀ note ∈ notes, note.Readable := by
  have hmembers : ∀ record ∈ state.sessionRecords id,
      ∃ note : StoredOwnedNote Id Addr Note, note.Readable ∧
        record = encodeOwnedNote note := by
    intro record hrecord
    obtain ⟨entry, hentry, rfl⟩ := List.mem_map.mp hrecord
    exact hstate entry.1 entry.2
      (AList.mem_lookup_iff.mpr (List.mem_filter.mp hentry).1)
  revert hmembers
  generalize state.sessionRecords id = records
  intro hmembers
  induction records with
  | nil => exact ⟨[], rfl, by simp⟩
  | cons record rest ih =>
      obtain ⟨note, hnote, rfl⟩ := hmembers record List.mem_cons_self
      obtain ⟨notes, hnotes, hreadable⟩ := ih fun other hother =>
        hmembers other (List.mem_cons_of_mem _ hother)
      refine ⟨note :: notes, by rw [hnotes, List.map_cons], ?_⟩
      exact List.forall_mem_cons.mpr ⟨hnote, hreadable⟩

/-! ## What is listed -/

/-- The total a list of stored notes is worth once committed. -/
def committedTotal (notes : List (StoredOwnedNote Id Addr Note)) :
    HoprBalance :=
  notes.foldl (fun total note =>
    if note.committed then total + note.detected.deposit.amount else total)
    HoprBalance.zero

/-- The notes of a list which have a leaf index. -/
def committedOf (notes : List (StoredOwnedNote Id Addr Note)) :
    List (CommittedCurvyNote Id Addr Note) :=
  notes.filterMap fun note => note.leafIndex.map fun leafIndex =>
    ⟨note.detected.deposit, note.detected.note, leafIndex⟩

omit [DecidableEq Id] in
/-- The total over records which are all read back. -/
theorem foldlM_decode {notes : List (StoredOwnedNote Id Addr Note)}
    (hreadable : ∀ note ∈ notes, note.Readable) (start : HoprBalance) :
    (notes.map encodeOwnedNote).foldlM (fun total record => do
        let note ← decodeOwnedNote record
        if note.committed then .ok (total + note.detected.deposit.amount)
        else .ok total) start =
      (.ok (notes.foldl (fun total note =>
        if note.committed then total + note.detected.deposit.amount
        else total) start) : Except CurvyStateError HoprBalance) := by
  induction notes generalizing start with
  | nil => rfl
  | cons note rest ih =>
      have hnote := decodeOwnedNote_iff.mpr
        (hreadable note List.mem_cons_self)
      rw [List.map_cons, List.foldlM_cons, hnote, List.foldl_cons,
        ← ih fun other hother =>
          hreadable other (List.mem_cons_of_mem note hother)]
      cases hcommitted : note.committed <;>
        simp [bind, Except.bind, hcommitted]

omit [DecidableEq Field] in
theorem committedAmount_of_readable {id : Id}
    {notes : List (StoredOwnedNote Id Addr Note)}
    (hrecords : state.sessionRecords id = notes.map encodeOwnedNote)
    (hreadable : ∀ note ∈ notes, note.Readable) :
    state.committedAmount id = .ok (committedTotal notes) := by
  unfold committedAmount committedTotal
  rw [hrecords]
  exact foldlM_decode hreadable HoprBalance.zero

omit [DecidableEq Id] in
theorem mapM_decode {notes : List (StoredOwnedNote Id Addr Note)}
    (hreadable : ∀ note ∈ notes, note.Readable) :
    (notes.map encodeOwnedNote).mapM decodeOwnedNote =
      (.ok notes : Except CurvyStateError _) := by
  induction notes with
  | nil => rfl
  | cons note rest ih =>
      have hnote := decodeOwnedNote_iff.mpr
        (hreadable note List.mem_cons_self)
      rw [List.map_cons, List.mapM_cons, hnote, ih fun other hother =>
        hreadable other (List.mem_cons_of_mem note hother)]
      rfl

omit [DecidableEq Field] in
theorem committedNotes_of_readable {id : Id}
    {notes : List (StoredOwnedNote Id Addr Note)}
    (hrecords : state.sessionRecords id = notes.map encodeOwnedNote)
    (hreadable : ∀ note ∈ notes, note.Readable) :
    state.committedNotes id = .ok (committedOf notes) := by
  unfold committedNotes
  rw [hrecords, mapM_decode hreadable]
  rfl

end CurvyDepositState

/-! ## Runs of the recovery state -/

section

variable {Id Addr Secret Field Owner Note : Type} [DecidableEq Id]
  [DecidableEq Field]

/-- What the pool does to its recovery state. -/
inductive RecoveryAction (Id Addr Secret Field : Type) where
  | candidate (watched : List (WatchedAllocation Id Addr Secret))
      (candidate : CurvyPendingNote)
  | completion (completion : CurvyCommittedNote)
  | removeSpent (id : Id) (noteIds : List Field)
  | wipe

/-- A completion does not announce the leaf index which stands for none. -/
def RecoveryAction.FitsRecord : RecoveryAction Id Addr Secret Field → Prop
  | .completion event => parseU64 event.leafIndex ≠ some (-1)
  | _ => True

/-- The recovery state of a pool, from an empty file on. -/
def recoverySystem (detector : CurvyNoteDetector Addr Secret Field Owner Note) :
    TransitionSystem (CurvyDepositState Id Addr Field Note)
      (RecoveryAction Id Addr Secret Field) where
  init state := state = .empty
  next state
    | .candidate watched candidate =>
        match state.processCandidate detector watched candidate with
        | .ok (after, _) => some after
        | .error _ => some state
    | .completion completion =>
        some (state.processCompletion detector completion).1
    | .removeSpent id noteIds => some (state.removeSpentNotes id noteIds)
    | .wipe => some .empty

namespace CurvyDepositState

variable {detector : CurvyNoteDetector Addr Secret Field Owner Note}
  {state : CurvyDepositState Id Addr Field Note}

theorem AllReadable.processCandidate (hstate : state.AllReadable)
    {watched : List (WatchedAllocation Id Addr Secret)}
    {candidate : CurvyPendingNote}
    {result : CurvyDepositState Id Addr Field Note × Bool}
    (hresult : state.processCandidate detector watched candidate =
      .ok result) : result.1.AllReadable := by
  unfold CurvyDepositState.processCandidate at hresult
  split at hresult
  · cases hresult
    exact hstate
  · split at hresult
    · cases hresult
      exact hstate
    · cases hresult
      exact hstate
    · split at hresult
      · cases hresult
      · cases hresult
        exact hstate.recordOwnedCandidate _ _ _

theorem AllReadable.processCompletion (hstate : state.AllReadable)
    {completion : CurvyCommittedNote}
    (hfits : parseU64 completion.leafIndex ≠ some (-1)) :
    (state.processCompletion detector completion).1.AllReadable := by
  unfold CurvyDepositState.processCompletion
  split
  · exact hstate
  · next leafIndex hleaf =>
      have hproper : leafIndex ≠ -1 := by
        intro hlast
        rw [hleaf, hlast] at hfits
        exact hfits rfl
      split
      · exact hstate
      · split
        · exact hstate
        · next after hrecord =>
            exact hstate.recordCompletion hproper hrecord
        · next after note hrecord =>
            have hafter := hstate.recordCompletion hproper hrecord
            split
            · exact hafter
            · exact hafter

theorem AllReadable.of_reachable
    (hreach : (recoverySystem detector).ReachableWithin
      (fun _ action => action.FitsRecord) state) : state.AllReadable := by
  apply hreach.invariant
  · rintro start rfl
    exact AllReadable.empty
  · intro before action after hbefore hfits hnext
    cases action with
    | candidate watched candidate =>
        simp only [recoverySystem] at hnext
        split at hnext
        · next result flag hresult =>
            cases hnext
            exact hbefore.processCandidate hresult
        · cases hnext
          exact hbefore
    | completion completion =>
        cases hnext
        exact hbefore.processCompletion hfits
    | removeSpent id noteIds =>
        cases hnext
        exact hbefore.removeSpentNotes id noteIds
    | wipe =>
        cases hnext
        exact AllReadable.empty

end CurvyDepositState

end

/-! ## The recovery records round-trip -/

section

variable {Id Addr Secret Field Owner Fr : Type} [DecidableEq Id]
  [DecidableEq Field]

/-- The notes of an allocation are read back from their octets, and the total
and the list are taken over them. -/
def ReadBack (codec : RecordCodec Id Addr Fr)
    (store : CurvyDepositState Id Addr Field (CurvyNote Fr)) (id : Id) :
    Prop :=
  ∃ notes : List (StoredOwnedNote Id Addr (CurvyNote Fr)),
    (store.sessionRecords id).map (writeRecord codec) =
        notes.map (encodeOwnedNoteOctets codec) ∧
      (∀ note ∈ notes, decodeOwnedNoteOctets codec
        (encodeOwnedNoteOctets codec note) = .ok note) ∧
      store.committedAmount id =
        .ok (CurvyDepositState.committedTotal notes) ∧
      store.committedNotes id = .ok (CurvyDepositState.committedOf notes)

/-- A pending note is read back, a committed one exactly when its leaf index is
not the largest 64-bit value, and a cursor exactly when it is canonical.  As
long as no completion announces that leaf index, every allocation is listed
from the notes which were stored. -/
theorem recoveryRecords_roundTrip (codec : RecordCodec Id Addr Fr)
    (detector : CurvyNoteDetector Addr Secret Field Owner (CurvyNote Fr)) :
    (∀ detected, decodeOwnedNoteOctets codec
        (encodeOwnedNoteOctets codec ⟨detected, false, none⟩) =
          .ok ⟨detected, false, none⟩) ∧
      (∀ detected leafIndex, decodeOwnedNoteOctets codec
          (encodeOwnedNoteOctets codec ⟨detected, true, some leafIndex⟩) =
            .ok ⟨detected, true, some leafIndex⟩ ↔ leafIndex ≠ -1) ∧
      (∀ cursor encoded, encodeCursor cursor = .ok encoded →
        (decodeCursor encoded = .ok cursor ↔ cursor.Canonical)) ∧
      ∀ store, (recoverySystem detector).ReachableWithin
          (fun _ action => action.FitsRecord) store →
        ∀ id, ReadBack codec store id := by
  refine ⟨?_, ?_, fun _ _ => decodeCursor_iff, ?_⟩
  · intro detected
    rw [decodeOwnedNoteOctets_encode]
    exact decodeOwnedNote_iff.mpr ⟨rfl, by simp⟩
  · intro detected leafIndex
    rw [decodeOwnedNoteOctets_encode, decodeOwnedNote_iff]
    constructor
    · intro hreadable hlast
      exact hreadable.leafIndex (congrArg some hlast)
    · intro hproper
      exact ⟨rfl, by simpa using hproper⟩
  · intro store hreach id
    obtain ⟨notes, hrecords, hreadable⟩ :=
      (CurvyDepositState.AllReadable.of_reachable hreach).sessionRecords id
    refine ⟨notes, ?_, ?_,
      CurvyDepositState.committedAmount_of_readable hrecords hreadable,
      CurvyDepositState.committedNotes_of_readable hrecords hreadable⟩
    · rw [hrecords, List.map_map]
      rfl
    · intro note hnote
      rw [decodeOwnedNoteOctets_encode]
      exact decodeOwnedNote_iff.mpr (hreadable note hnote)

end

/-! ## The largest leaf index -/

/-- A digit as the last octet of its piece. -/
def digitOctets (size : ℕ) : FixedCodec (Fin 10) (size + 1) where
  encode value := List.replicate size 0 ++ [UInt8.ofNat value]
  decode octets := .ok (digit (octets.getLastD 0).toNat)
  length_encode := by simp
  decode_encode := by
    intro value
    rw [List.getLastD_concat]
    revert value
    decide

def digitRecords : RecordCodec (Fin 10) (Fin 10) (Fin 10) :=
  ⟨digitOctets 13, digitOctets 31, digitOctets 31⟩

/-- `plaintextDetector` over digits. -/
def digitDetector :
    CurvyNoteDetector (Fin 10) Unit (Fin 10) (Fin 10) (CurvyNote (Fin 10)) where
  expectedToken := digit 0
  fromStrRadix := plaintextDetector.fromStrRadix
  fieldChecked value := if h : value < 10 then some ⟨value, h⟩ else none
  fieldMod := digit
  fieldFromDec text := (plaintextDetector.fieldFromDec text).map digit
  viewTagField tag := digit tag.toNat
  bjjPoint := .ok
  viewerScan _ _ _ := .ok [⟨0, "1.1"⟩]
  decryptAmountToken amount token _ _ := (amount, token)
  knownOwnerNote owner sharedSecret amount token ephemeralKey viewTag :=
    ⟨(owner, digit 0), sharedSecret, ephemeralKey, viewTag, amount, token⟩
  noteId note := note.ownerPub.1 + note.amount
  toBalance amount := HoprBalance.saturating amount

/-- The sole note is announced and then committed at a leaf index. -/
def soleRun (leafIndex : String) :
    List (RecoveryAction (Fin 10) (Fin 10) Unit (Fin 10)) :=
  [.candidate [⟨digit 1, digit 5, ()⟩] soleNote,
    .completion ⟨⟨2, 0, 0, 0⟩, noteText, leafIndex⟩]

/-- The recovery state after the run. -/
def soleStore (leafIndex : UInt64) :
    CurvyDepositState (Fin 10) (Fin 10) (Fin 10) (CurvyNote (Fin 10)) where
  pendingCursor := some ⟨1, 0, 0, 0⟩
  committedCursor := some ⟨2, 0, 0, 0⟩
  ownedNotes := AList.insert (digit 1, digit 7)
    ⟨⟨⟨digit 1, digit 5, HoprBalance.saturating 2⟩,
      ⟨(digit 5, digit 0), digit 1, (digit 0, digit 0), digit 0, digit 2,
        digit 0⟩⟩, true, leafIndex⟩ ∅
  noteSessions := AList.insert (digit 7) (digit 1) ∅

theorem soleRun_soleStore :
    (recoverySystem digitDetector).run .empty (soleRun "3") =
        some (soleStore 3) ∧
      (recoverySystem digitDetector).run .empty
        (soleRun "18446744073709551615") = some (soleStore (-1)) :=
  ⟨by rfl, by rfl⟩

/-- A note committed at leaf 3 is listed, and the cursor of block 7 is read
back. -/
theorem recoveryRecords_roundTrip_soleNote :
    ReadBack digitRecords (soleStore 3) 1 ∧
      decodeCursor (cursorOctets 7 0 0 1 []) =
        .ok ⟨"7", "0", "0", "1", none⟩ := by
  constructor
  · apply (recoveryRecords_roundTrip digitRecords digitDetector).2.2.2
    apply TransitionSystem.ReachableWithin.run (.init rfl) (soleRun "3") _
      soleRun_soleStore.1
    intro _ action haction
    simp only [soleRun, List.mem_cons, List.not_mem_nil, or_false] at haction
    rcases haction with rfl | rfl
    · trivial
    · intro hlast
      exact absurd hlast (by decide)
  · apply ((recoveryRecords_roundTrip digitRecords digitDetector).2.2.1
      ⟨"7", "0", "0", "1", none⟩ _ rfl).mpr
    exact ⟨⟨7, by decide⟩, ⟨0, by decide⟩, ⟨0, by decide⟩, ⟨1, by decide⟩,
      by simp⟩

/-- A note which is committed at the largest leaf index is stored as one whose
flag and leaf index disagree, and its allocation is not read any more. -/
theorem recoveryRecords_lastLeafIndex :
    (¬ ∀ detected leafIndex, decodeOwnedNoteOctets digitRecords
        (encodeOwnedNoteOctets digitRecords
          ⟨detected, true, some leafIndex⟩) =
          .ok ⟨detected, true, some leafIndex⟩) ∧
      ¬ ∀ store, (recoverySystem digitDetector).Reachable store →
        ∀ id, ReadBack digitRecords store id := by
  constructor
  · intro hread
    have hlast := hread
      ⟨⟨1, 5, HoprBalance.zero⟩, ⟨(5, 0), 1, (0, 0), 0, 2, 0⟩⟩ (-1)
    rw [decodeOwnedNoteOctets_encode, decodeOwnedNote_iff] at hlast
    exact hlast.leafIndex rfl
  · intro hread
    have hreach := TransitionSystem.Reachable.run (.init rfl) _
      soleRun_soleStore.2
    obtain ⟨notes, -, -, htotal, -⟩ := hread (soleStore (-1)) hreach 1
    have herror : (soleStore (-1)).committedAmount 1 = .error
        (.corrupt "owned-note commitment flag and leaf index disagree") := by
      rfl
    rw [herror] at htotal
    cases htotal

end HoprStrategy.Curvy
