import HoprStrategy.Errors
import HoprStrategy.Library.AbiArguments
import HoprStrategy.Library.CheckedWords

/-!
# Calldata for the Safe's permission module

The payloads are built by hand: selector, head words with the offset of the
data, and the data as a padded tail.  The routed shield nests one such call
in the data of another.
-/

namespace HoprStrategy.Curvy.Module

open Library

abbrev Octets : Type := List UInt8

structure Address where
  octets : Octets
  length_octets : octets.length = 20
  deriving DecidableEq

/-- Data in memory, whose length is a `usize`. -/
structure Bytes where
  octets : Octets
  bound : octets.length < 2 ^ 64

def execTransactionFromModule : Octets := [0x46, 0x87, 0x21, 0xa7]

def erc777Send : Octets := [0x9b, 0xd9, 0xbb, 0xc6]

def directShield : Octets := [0x39, 0xf8, 0xb8, 0x5d]

/-- One `Note`, six static words. -/
def noteLen : ℕ := 6 * 32

inductive Operation where
  | call
  deriving DecidableEq

def Operation.toNat : Operation → ℕ
  | .call => 0

/-- The word of a `u128`, which fills the last 16 octets. -/
def word (value : ℕ) : Octets :=
  List.replicate 16 0 ++ toBigEndian 16 value

def addressWord (address : Address) : Octets :=
  List.replicate 12 0 ++ address.octets

/-- What `pad_to_word` appends. -/
def padToWord (len : ℕ) : Octets :=
  List.replicate ((32 - len % 32) % 32) 0

def encodeErc777Send (recipient : Address) (amount : Word 128) (data : Octets) :
    Octets :=
  erc777Send ++ addressWord recipient ++ word amount.toNat ++
    word (3 * 32) ++ word data.length ++ data ++ padToWord data.length

def encodeExecFromModule (target : Address) (data : Octets)
    (operation : Operation) : Octets :=
  execTransactionFromModule ++ addressWord target ++ word 0 ++ word (4 * 32) ++
    word operation.toNat ++ word data.length ++ data ++ padToWord data.length

/-- The aggregator word and the arguments of the prepared call. -/
def routerUserData (aggregator : Address) (directShieldCalldata : Octets) :
    Except (StrategyError String) Octets :=
  let selector := directShieldCalldata.take 4
  let note := directShieldCalldata.drop 4
  if 4 ≤ directShieldCalldata.length ∧ selector = directShield ∧
      note.length = noteLen then
    .ok (addressWord aggregator ++ note)
  else
    .error (.other
      ("the SDK's direct-shield calldata is not `directShield(Note)` (" ++
        toString directShieldCalldata.length ++ " bytes)"))

def encodeSafeRouterShield (token router aggregator : Address)
    (gross : Word 128) (directShieldCalldata : Octets) :
    Except (StrategyError String) Octets :=
  match routerUserData aggregator directShieldCalldata with
  | .error error => .error error
  | .ok userData =>
      .ok (encodeExecFromModule token (encodeErc777Send router gross userData)
        .call)

/-! ## What the contracts decode -/

structure SendCall where
  recipient : Address
  amount : ℕ
  data : Octets
  deriving DecidableEq

structure ExecCall where
  target : Address
  value : ℕ
  data : Octets
  operation : Operation
  deriving DecidableEq

/-- An address is a word with twelve leading zeros. -/
def decodeAddress (value : ℕ) : Option Address :=
  if value < 2 ^ 160 then
    some ⟨toBigEndian 20 value, length_toBigEndian 20 value⟩
  else none

def decodeOperation (value : ℕ) : Option Operation :=
  if value = 0 then some .call else none

/-- The arguments behind a selector. -/
def decodeCall (selector : Octets) (kinds : List AbiKind) (calldata : Octets) :
    Option (List AbiArg) :=
  if calldata.take 4 = selector then abiDecode kinds (calldata.drop 4)
  else none

def decodeErc777Send (calldata : Octets) : Option SendCall :=
  match decodeCall erc777Send [.static, .static, .dynamic] calldata with
  | some [.static recipient, .static amount, .dynamic data] =>
      (decodeAddress recipient).map (⟨·, amount, data⟩)
  | _ => none

def decodeExecFromModule (calldata : Octets) : Option ExecCall :=
  match decodeCall execTransactionFromModule
      [.static, .static, .dynamic, .static] calldata with
  | some [.static target, .static value, .dynamic data, .static operation] =>
      match decodeAddress target, decodeOperation operation with
      | some target, some operation => some ⟨target, value, data, operation⟩
      | _, _ => none
  | _ => none

/-! ## The words of the encoders -/

theorem word_eq_abiWord {value : ℕ} (hvalue : value < 2 ^ 128) :
    word value = abiWord value := by
  rw [word, abiWord, ← toBigEndian_add 16]
  norm_num at hvalue ⊢
  exact hvalue

def Address.toNat (address : Address) : ℕ := ofBigEndian address.octets

theorem Address.toNat_lt (address : Address) : address.toNat < 2 ^ 160 := by
  have hlt := ofBigEndian_lt address.octets
  rw [address.length_octets] at hlt
  norm_num at hlt ⊢
  exact hlt

theorem toBigEndian_toNat (address : Address) :
    toBigEndian 20 address.toNat = address.octets := by
  have hoctets := toBigEndian_ofBigEndian address.octets
  rwa [address.length_octets] at hoctets

theorem addressWord_eq_abiWord (address : Address) :
    addressWord address = abiWord address.toNat := by
  have hlt := address.toNat_lt
  rw [addressWord, abiWord, ← toBigEndian_toNat, ← toBigEndian_add 12]
  norm_num at hlt ⊢
  exact hlt

@[simp] theorem decodeAddress_toNat (address : Address) :
    decodeAddress address.toNat = some address := by
  unfold decodeAddress
  rw [if_pos address.toNat_lt]
  congr
  exact toBigEndian_toNat address

/-! ## The calls as encoded arguments -/

theorem encodeErc777Send_eq (recipient : Address) (amount : Word 128)
    (data : Bytes) :
    encodeErc777Send recipient amount data.octets = erc777Send ++
      abiEncode [.static recipient.toNat, .static amount.toNat,
        .dynamic data.octets] := by
  have hoffset : word (3 * 32) = abiWord (32 * 3) :=
    word_eq_abiWord (by norm_num)
  have hlength : word data.octets.length = abiWord data.octets.length :=
    word_eq_abiWord (data.bound.trans (by norm_num))
  simp only [encodeErc777Send, addressWord_eq_abiWord,
    word_eq_abiWord amount.bound, hoffset, hlength, abiEncode, abiHeads,
    abiTails, abiTail, List.append_assoc, List.append_nil]
  rfl

theorem encodeExecFromModule_eq (target : Address) (data : Bytes)
    (operation : Operation) :
    encodeExecFromModule target data.octets operation =
      execTransactionFromModule ++
        abiEncode [.static target.toNat, .static 0, .dynamic data.octets,
          .static operation.toNat] := by
  have hzero : word 0 = abiWord 0 := word_eq_abiWord (by norm_num)
  have hoffset : word (4 * 32) = abiWord (32 * 4) :=
    word_eq_abiWord (by norm_num)
  have hlength : word data.octets.length = abiWord data.octets.length :=
    word_eq_abiWord (data.bound.trans (by norm_num))
  have hoperation : word operation.toNat = abiWord operation.toNat := by
    cases operation with
    | call => exact hzero
  simp only [encodeExecFromModule, addressWord_eq_abiWord, hzero, hoffset,
    hlength, hoperation, abiEncode, abiHeads, abiTails, abiTail,
    List.append_assoc, List.append_nil]
  rfl

theorem decodeCall_append {selector : Octets} (hselector : selector.length = 4)
    (kinds : List AbiKind) (arguments : Octets) :
    decodeCall selector kinds (selector ++ arguments) =
      abiDecode kinds arguments := by
  rw [decodeCall, List.take_left' hselector, List.drop_left' hselector,
    if_pos rfl]

theorem decodeErc777Send_encode (recipient : Address) (amount : Word 128)
    (data : Bytes) :
    decodeErc777Send (encodeErc777Send recipient amount data.octets) =
      some ⟨recipient, amount.toNat, data.octets⟩ := by
  have hrecipient := recipient.toNat_lt
  have hamount := amount.bound
  have hlength := length_abiTail_le data.octets
  have hbound := data.bound
  have hstatic : ∀ value, .static value ∈ [AbiArg.static recipient.toNat,
      .static amount.toNat, .dynamic data.octets] → value < 2 ^ 256 := by
    intro value hmem
    simp only [List.mem_cons, AbiArg.static.injEq, reduceCtorEq, or_false,
      List.not_mem_nil] at hmem
    omega
  have hdecode := abiDecode_encode hstatic (by
    simp only [abiTails, List.append_nil, List.length_cons, List.length_nil]
    omega)
  simp only [List.map_cons, List.map_nil, AbiArg.kind] at hdecode
  rw [encodeErc777Send_eq, decodeErc777Send, decodeCall_append rfl, hdecode]
  simp only [decodeAddress_toNat, Option.map_some]

theorem decodeExecFromModule_encode (target : Address) (data : Bytes)
    (operation : Operation) :
    decodeExecFromModule (encodeExecFromModule target data.octets operation) =
      some ⟨target, 0, data.octets, operation⟩ := by
  have htarget := target.toNat_lt
  have hlength := length_abiTail_le data.octets
  have hbound := data.bound
  have hoperation : decodeOperation operation.toNat = some operation := by
    cases operation with
    | call => rfl
  have hstatic : ∀ value, .static value ∈ [AbiArg.static target.toNat,
      .static 0, .dynamic data.octets, .static operation.toNat] →
      value < 2 ^ 256 := by
    intro value hmem
    cases operation with
    | call =>
        simp only [List.mem_cons, AbiArg.static.injEq, reduceCtorEq, false_or,
          List.not_mem_nil, or_false, Operation.toNat] at hmem
        omega
  have hdecode := abiDecode_encode hstatic (by
    simp only [abiTails, List.append_nil, List.length_cons, List.length_nil]
    omega)
  simp only [List.map_cons, List.map_nil, AbiArg.kind] at hdecode
  rw [encodeExecFromModule_eq, decodeExecFromModule, decodeCall_append rfl,
    hdecode]
  simp only [decodeAddress_toNat, hoperation]

/-! ## The decoders are strict -/

theorem decodeCall_eq_some {selector calldata : Octets} {kinds : List AbiKind}
    {args : List AbiArg}
    (hdecode : decodeCall selector kinds calldata = some args) :
    calldata = selector ++ abiEncode args := by
  unfold decodeCall at hdecode
  split at hdecode
  · rename_i hselector
    rw [(abiDecode_eq_some hdecode).2, ← hselector, List.take_append_drop]
  · cases hdecode

theorem toNat_of_decodeAddress {value : ℕ} {address : Address}
    (hdecode : decodeAddress value = some address) :
    address.toNat = value := by
  unfold decodeAddress at hdecode
  split at hdecode
  · rename_i hvalue
    cases hdecode
    rw [Address.toNat, ofBigEndian_toBigEndian]
    refine Nat.mod_eq_of_lt ?_
    norm_num at hvalue ⊢
    exact hvalue
  · cases hdecode

theorem decodeErc777Send_eq_some {calldata : Octets} {call : SendCall}
    (hdecode : decodeErc777Send calldata = some call) :
    calldata = erc777Send ++ abiEncode [.static call.recipient.toNat,
      .static call.amount, .dynamic call.data] := by
  unfold decodeErc777Send at hdecode
  split at hdecode
  · rename_i recipient amount data hcall
    obtain ⟨address, haddress, rfl⟩ := Option.map_eq_some_iff.mp hdecode
    rw [decodeCall_eq_some hcall, toNat_of_decodeAddress haddress]
  · cases hdecode

theorem decodeExecFromModule_eq_some {calldata : Octets} {call : ExecCall}
    (hdecode : decodeExecFromModule calldata = some call) :
    calldata = execTransactionFromModule ++ abiEncode
      [.static call.target.toNat, .static call.value, .dynamic call.data,
        .static call.operation.toNat] := by
  unfold decodeExecFromModule at hdecode
  split at hdecode
  · rename_i target value data operation hcall
    split at hdecode
    · rename_i address operation' haddress hoperation
      cases hdecode
      have hzero : operation'.toNat = operation := by
        unfold decodeOperation at hoperation
        split at hoperation
        · rename_i hvalue
          cases hoperation
          exact hvalue.symm
        · cases hoperation
      rw [decodeCall_eq_some hcall, toNat_of_decodeAddress haddress, hzero]
    · cases hdecode
  · cases hdecode

/-! ## The routed shield -/

theorem routerUserData_eq_ok {aggregator : Address} {calldata userData : Octets} :
    routerUserData aggregator calldata = .ok userData ↔
      ∃ note, calldata = directShield ++ note ∧ note.length = noteLen ∧
        userData = addressWord aggregator ++ note := by
  unfold routerUserData
  constructor
  · intro hdata
    simp only at hdata
    split at hdata
    · rename_i hchecks
      obtain ⟨_, hselector, hnote⟩ := hchecks
      cases hdata
      refine ⟨calldata.drop 4, ?_, hnote, rfl⟩
      rw [← hselector, List.take_append_drop]
    · cases hdata
  · rintro ⟨note, rfl, hnote, rfl⟩
    have htake : (directShield ++ note).take 4 = directShield :=
      List.take_left' rfl
    have hdrop : (directShield ++ note).drop 4 = note := List.drop_left' rfl
    have hlong : 4 ≤ (directShield ++ note).length := by
      rw [List.length_append]
      exact Nat.le_add_right 4 _
    simp only [htake, hdrop, hnote, hlong, and_self, if_true]

theorem length_addressWord (address : Address) :
    (addressWord address).length = 32 := by
  rw [addressWord_eq_abiWord, length_abiWord]

theorem length_userData (aggregator : Address) {note : Octets}
    (hnote : note.length = noteLen) :
    (addressWord aggregator ++ note).length = 224 := by
  rw [List.length_append, length_addressWord, hnote]
  rfl

/-- What the router is sent. -/
def userDataOf (aggregator : Address) (note : Octets)
    (hnote : note.length = noteLen) : Bytes where
  octets := addressWord aggregator ++ note
  bound := (length_userData aggregator hnote).trans_lt (by norm_num)

theorem length_encodeErc777Send_lt (router : Address) (gross : Word 128)
    {data : Bytes} (hdata : data.octets.length ≤ 2 ^ 63) :
    (encodeErc777Send router gross data.octets).length < 2 ^ 64 := by
  have hlength := length_abiTail_le data.octets
  have hselector : erc777Send.length = 4 := rfl
  rw [encodeErc777Send_eq, List.length_append, abiEncode, List.length_append,
    length_abiHeads, abiTails, abiTails, abiTails, abiTails, List.append_nil]
  simp only [List.length_cons, List.length_nil]
  omega

/-- The nested call is data of the outer one. -/
def sendOf (router : Address) (gross : Word 128) (data : Bytes)
    (hdata : data.octets.length ≤ 2 ^ 63) : Bytes where
  octets := encodeErc777Send router gross data.octets
  bound := length_encodeErc777Send_lt router gross hdata

theorem encodeSafeRouterShield_eq_ok {token router aggregator : Address}
    {gross : Word 128} {calldata out : Octets} :
    encodeSafeRouterShield token router aggregator gross calldata = .ok out ↔
      ∃ note, calldata = directShield ++ note ∧ note.length = noteLen ∧
        out = encodeExecFromModule token
          (encodeErc777Send router gross (addressWord aggregator ++ note))
          .call := by
  unfold encodeSafeRouterShield
  constructor
  · intro hout
    split at hout
    · cases hout
    · rename_i userData hdata
      obtain ⟨note, hcalldata, hnote, rfl⟩ := routerUserData_eq_ok.mp hdata
      cases hout
      exact ⟨note, hcalldata, hnote, rfl⟩
  · rintro ⟨note, hcalldata, hnote, rfl⟩
    rw [routerUserData_eq_ok.mpr ⟨note, hcalldata, hnote, rfl⟩]

/-- The routed shield is encoded exactly for the calldata of a direct shield,
and both calls of it, as any call of the two encoders, decode to what was
encoded. -/
theorem safeRouterShield_roundTrip :
    (∀ (token router aggregator : Address) (gross : Word 128)
        (calldata : Octets),
      ((∃ out, encodeSafeRouterShield token router aggregator gross calldata =
          .ok out) ↔
        ∃ note, calldata = directShield ++ note ∧ note.length = noteLen) ∧
      ∀ out, encodeSafeRouterShield token router aggregator gross calldata =
          .ok out →
        ∃ note send, calldata = directShield ++ note ∧
          decodeExecFromModule out = some ⟨token, 0, send, .call⟩ ∧
          decodeErc777Send send =
            some ⟨router, gross.toNat, addressWord aggregator ++ note⟩) ∧
    (∀ (recipient : Address) (amount : Word 128) (data : Bytes),
      decodeErc777Send (encodeErc777Send recipient amount data.octets) =
        some ⟨recipient, amount.toNat, data.octets⟩) ∧
    ∀ (target : Address) (data : Bytes) (operation : Operation),
      decodeExecFromModule
          (encodeExecFromModule target data.octets operation) =
        some ⟨target, 0, data.octets, operation⟩ := by
  refine ⟨?_, decodeErc777Send_encode, decodeExecFromModule_encode⟩
  intro token router aggregator gross calldata
  constructor
  · constructor
    · rintro ⟨out, hout⟩
      obtain ⟨note, hcalldata, hnote, _⟩ :=
        encodeSafeRouterShield_eq_ok.mp hout
      exact ⟨note, hcalldata, hnote⟩
    · rintro ⟨note, hcalldata, hnote⟩
      exact ⟨_, encodeSafeRouterShield_eq_ok.mpr ⟨note, hcalldata, hnote, rfl⟩⟩
  · intro out hout
    obtain ⟨note, hcalldata, hnote, rfl⟩ :=
      encodeSafeRouterShield_eq_ok.mp hout
    let userData := userDataOf aggregator note hnote
    have hsize : userData.octets.length ≤ 2 ^ 63 :=
      (length_userData aggregator hnote).trans_le (by norm_num)
    let send := sendOf router gross userData hsize
    exact ⟨note, send.octets, hcalldata,
      decodeExecFromModule_encode token send .call,
      decodeErc777Send_encode router gross userData⟩

end HoprStrategy.Curvy.Module
