import HoprStrategy.Library.AuthenticatedEncryption
import Mathlib.Data.List.AList
import Mathlib.Tactic

/-!
# The store of recovered keys

Every value in the file is a nonce followed by a ciphertext, and the ciphertext
is bound to the row it is filed under.  The password is checked against a value
of its own, bound to a row no id is encoded as.

The octets of a value are of any type, since over the real ones no encryption
of this size is ideal.
-/

namespace HoprStrategy.RecoveryStore

open Library

abbrev pseudonymSize : ℕ := 10

abbrev indexSize : ℕ := 4

abbrev keySize : ℕ := pseudonymSize + indexSize

abbrev nonceSize : ℕ := 12

abbrev secretSize : ℕ := 32

abbrev cipherSize : ℕ := secretSize + 16

abbrev valueSize : ℕ := nonceSize + cipherSize

abbrev saltSize : ℕ := 16

inductive PixRecoveryStoreError where
  | encryption
  | decryption
  | corruptKey
  | wrongPassword
  deriving DecidableEq

section Framing

variable {Octet : Type} {size rest : ℕ}

def front (framed : Vector Octet (size + rest)) : Vector Octet size :=
  Vector.ofFn fun index => framed[index.castAdd rest]

def back (framed : Vector Octet (size + rest)) : Vector Octet rest :=
  Vector.ofFn fun index => framed[index.natAdd size]

@[simp] theorem front_append (head : Vector Octet size)
    (tail : Vector Octet rest) : front (head ++ tail) = head := by
  ext index hindex
  simp [front]

@[simp] theorem back_append (head : Vector Octet size)
    (tail : Vector Octet rest) : back (head ++ tail) = tail := by
  ext index hindex
  simp [back]

theorem front_append_back (framed : Vector Octet (size + rest)) :
    front framed ++ back framed = framed := by
  ext index hindex
  by_cases hfront : index < size
  · simp [front, Vector.getElem_append_left hfront]
  · have hback : size ≤ index := by omega
    rw [Vector.getElem_append_right hindex hback]
    simp [back, Nat.add_sub_cancel' hback]

end Framing

/-- The id of an address: a pseudonym and an index other than zero. -/
structure PixAddressId where
  pseudonym : Vector UInt8 pseudonymSize
  ssaIndex : UInt32
  nonzero : ssaIndex ≠ 0
  deriving DecidableEq

def toBeBytes (index : UInt32) : Vector UInt8 indexSize :=
  #v[UInt8.ofNat (index.toNat / 2 ^ 24), UInt8.ofNat (index.toNat / 2 ^ 16),
    UInt8.ofNat (index.toNat / 2 ^ 8), UInt8.ofNat index.toNat]

def fromBeBytes (bytes : Vector UInt8 indexSize) : UInt32 :=
  UInt32.ofNat (bytes[0].toNat * 2 ^ 24 + bytes[1].toNat * 2 ^ 16 +
    bytes[2].toNat * 2 ^ 8 + bytes[3].toNat)

theorem fromBeBytes_toBeBytes (index : UInt32) :
    fromBeBytes (toBeBytes index) = index := by
  apply UInt32.toNat.inj
  have hbound := index.toNat_lt
  simp [fromBeBytes, toBeBytes]
  omega

theorem toBeBytes_fromBeBytes (bytes : Vector UInt8 indexSize) :
    toBeBytes (fromBeBytes bytes) = bytes := by
  have h0 := bytes[0].toNat_lt
  have h1 := bytes[1].toNat_lt
  have h2 := bytes[2].toNat_lt
  have h3 := bytes[3].toNat_lt
  apply Vector.ext
  intro index hindex
  apply UInt8.toNat.inj
  simp only [toBeBytes, fromBeBytes]
  interval_cases index
  all_goals simp
  all_goals omega

def encodeKey (id : PixAddressId) : Vector UInt8 keySize :=
  id.pseudonym ++ toBeBytes id.ssaIndex

def decodeKey (bytes : Vector UInt8 keySize) :
    Except PixRecoveryStoreError PixAddressId :=
  if hzero : fromBeBytes (back bytes) = 0 then .error .corruptKey
  else .ok ⟨front bytes, fromBeBytes (back bytes), hzero⟩

theorem decodeKey_encodeKey (id : PixAddressId) :
    decodeKey (encodeKey id) = .ok id := by
  simp [decodeKey, encodeKey, fromBeBytes_toBeBytes, id.nonzero]

theorem encodeKey_inj {id other : PixAddressId}
    (heq : encodeKey id = encodeKey other) : id = other := by
  have hdecode := decodeKey_encodeKey id
  rw [heq, decodeKey_encodeKey, Except.ok.injEq] at hdecode
  exact hdecode.symm

theorem encodeKey_of_decodeKey {bytes : Vector UInt8 keySize}
    {id : PixAddressId} (hdecode : decodeKey bytes = .ok id) :
    encodeKey id = bytes := by
  unfold decodeKey at hdecode
  split at hdecode
  · cases hdecode
  · cases hdecode
    simp only [encodeKey, toBeBytes_fromBeBytes]
    exact front_append_back bytes

def verifierPlaintext : Vector UInt8 secretSize :=
  ⟨("hopr-pix-recovery-store-verifier".toList.map fun character =>
    UInt8.ofNat character.toNat).toArray, by decide⟩

def verifierAad : Vector UInt8 keySize := Vector.replicate keySize 0

theorem decodeKey_verifierAad : decodeKey verifierAad = .error .corruptKey := by
  decide

theorem encodeKey_ne_verifierAad (id : PixAddressId) :
    encodeKey id ≠ verifierAad := by
  intro heq
  have hdecode := decodeKey_encodeKey id
  rw [heq, decodeKey_verifierAad] at hdecode
  cases hdecode

variable {Key Octet : Type}

/-- What the store takes from elsewhere: the derivation of a key from the
password, and the encryption. -/
structure Primitives (Key Octet : Type) where
  scrypt : String → Vector UInt8 saltSize → Key
  chaCha20Poly1305 : Aead Key (Vector Octet nonceSize) (Vector UInt8 keySize)
    (Vector UInt8 secretSize) (Vector Octet cipherSize)

abbrev StoredValue (Octet : Type) : Type := Vector Octet valueSize

structure RecoveryFile (Octet : Type) where
  pixKdfSalt : Option (Vector UInt8 saltSize)
  pixRecoveredKeys : AList fun _ : Vector UInt8 keySize => StoredValue Octet
  pixKdfVerifier : Option (StoredValue Octet)

namespace RecoveryFile

/-- The first transaction of `open`. -/
def openSalt (file : RecoveryFile Octet) (fresh : Vector UInt8 saltSize) :
    Vector UInt8 saltSize × RecoveryFile Octet :=
  match file.pixKdfSalt with
  | some salt => (salt, file)
  | none => (fresh, { file with pixKdfSalt := some fresh })

def contains (file : RecoveryFile Octet) (id : PixAddressId) : Bool :=
  (file.pixRecoveredKeys.lookup (encodeKey id)).isSome

def remove (file : RecoveryFile Octet) (id : PixAddressId) :
    Bool × RecoveryFile Octet :=
  (file.contains id, { file with
    pixRecoveredKeys := file.pixRecoveredKeys.erase (encodeKey id) })

/-- The salt which is used is the one in the file from then on. -/
theorem openSalt_file {file after : RecoveryFile Octet}
    {fresh salt : Vector UInt8 saltSize}
    (hopen : file.openSalt fresh = (salt, after)) :
    after = { file with pixKdfSalt := some salt } := by
  unfold openSalt at hopen
  split at hopen
  · rename_i hsalt
    cases hopen
    rw [← hsalt]
  · cases hopen
    rfl

end RecoveryFile

namespace Primitives

variable (primitives : Primitives Key Octet)

def deriveKey (password : String) (salt : Vector UInt8 saltSize) : Key :=
  primitives.scrypt password salt

def encrypt (key : Key) (aad : Vector UInt8 keySize)
    (plaintext : Vector UInt8 secretSize) (nonce : Vector Octet nonceSize) :
    Except PixRecoveryStoreError (StoredValue Octet) :=
  match primitives.chaCha20Poly1305.encrypt key nonce aad plaintext with
  | some ciphertext => .ok (nonce ++ ciphertext)
  | none => .error .encryption

def decrypt (key : Key) (aad : Vector UInt8 keySize)
    (stored : StoredValue Octet) :
    Except PixRecoveryStoreError (Vector UInt8 secretSize) :=
  match primitives.chaCha20Poly1305.decrypt key (front stored) aad
      (back stored) with
  | some plaintext => .ok plaintext
  | none => .error .decryption

/-- The password decides the key, and a value opens only where it was made. -/
structure Ideal : Prop where
  scrypt : ∀ {password other salt context},
    primitives.scrypt password salt = primitives.scrypt other context →
      password = other
  chaCha20Poly1305 : primitives.chaCha20Poly1305.Ideal

/-- The second transaction of `open`. -/
def openVerifier (file : RecoveryFile Octet) (key : Key)
    (nonce : Vector Octet nonceSize) :
    Except PixRecoveryStoreError (RecoveryFile Octet) :=
  match file.pixKdfVerifier with
  | some stored =>
      match primitives.decrypt key verifierAad stored with
      | .error _ => .error .wrongPassword
      | .ok plaintext =>
          if plaintext ≠ verifierPlaintext then .error .wrongPassword
          else .ok file
  | none =>
      match primitives.encrypt key verifierAad verifierPlaintext nonce with
      | .error error => .error error
      | .ok verifier => .ok { file with pixKdfVerifier := some verifier }

def insert (file : RecoveryFile Octet) (key : Key) (id : PixAddressId)
    (secret : Vector UInt8 secretSize) (nonce : Vector Octet nonceSize) :
    Except PixRecoveryStoreError (Bool × RecoveryFile Octet) :=
  if file.contains id then .ok (false, file)
  else
    match primitives.encrypt key (encodeKey id) secret nonce with
    | .error error => .error error
    | .ok stored =>
        .ok (true, { file with
          pixRecoveredKeys := file.pixRecoveredKeys.insert (encodeKey id) stored })

/-- A row of the table, which the database may fail to read. -/
def readRow (key : Key) (readable : Vector UInt8 keySize → Bool)
    (row : Vector UInt8 keySize × StoredValue Octet) :
    Option (PixAddressId × Vector UInt8 secretSize) :=
  if readable row.1 then
    match decodeKey row.1 with
    | .error _ => none
    | .ok id =>
        match primitives.decrypt key row.1 row.2 with
        | .error _ => none
        | .ok plaintext => some (id, plaintext)
  else none

def iterRow (key : Key) (readable : Vector UInt8 keySize → Bool)
    (soFar : List (PixAddressId × Vector UInt8 secretSize) × ℕ)
    (row : Sigma fun _ : Vector UInt8 keySize => StoredValue Octet) :
    List (PixAddressId × Vector UInt8 secretSize) × ℕ :=
  match primitives.readRow key readable (row.1, row.2) with
  | some entry => (soFar.1 ++ [entry], soFar.2)
  | none => (soFar.1, soFar.2 + 1)

/-- The entries, and how many rows were skipped. -/
def iter (file : RecoveryFile Octet) (key : Key)
    (readable : Vector UInt8 keySize → Bool) :
    List (PixAddressId × Vector UInt8 secretSize) × ℕ :=
  file.pixRecoveredKeys.entries.foldl (primitives.iterRow key readable) ([], 0)

variable {primitives} {file after : RecoveryFile Octet} {key : Key}

theorem Ideal.origin (hideal : primitives.Ideal) {reader : Key}
    {aad context : Vector UInt8 keySize}
    {plaintext opened : Vector UInt8 secretSize}
    {nonce : Vector Octet nonceSize} {stored : StoredValue Octet}
    (hencrypt : primitives.encrypt key aad plaintext nonce = .ok stored)
    (hdecrypt : primitives.decrypt reader context stored = .ok opened) :
    reader = key ∧ context = aad ∧ opened = plaintext := by
  unfold encrypt at hencrypt
  split at hencrypt
  · rename_i ciphertext hciphertext
    cases hencrypt
    unfold decrypt at hdecrypt
    rw [front_append, back_append] at hdecrypt
    split at hdecrypt
    · rename_i hplaintext
      cases hdecrypt
      exact hideal.chaCha20Poly1305.origin hciphertext hplaintext
    · cases hdecrypt
  · cases hencrypt

theorem Ideal.decrypts (hideal : primitives.Ideal)
    {aad : Vector UInt8 keySize} {plaintext : Vector UInt8 secretSize}
    {nonce : Vector Octet nonceSize} {stored : StoredValue Octet}
    (hencrypt : primitives.encrypt key aad plaintext nonce = .ok stored) :
    primitives.decrypt key aad stored = .ok plaintext := by
  unfold encrypt at hencrypt
  split at hencrypt
  · rename_i ciphertext hciphertext
    cases hencrypt
    unfold decrypt
    rw [front_append, back_append,
      hideal.chaCha20Poly1305.decrypts hciphertext]
  · cases hencrypt

/-- A verifier is left alone when the key opens it, and written when there is
none. -/
theorem openVerifier_eq_ok {nonce : Vector Octet nonceSize}
    (hopen : primitives.openVerifier file key nonce = .ok after) :
    (∃ stored, file.pixKdfVerifier = some stored ∧
      primitives.decrypt key verifierAad stored = .ok verifierPlaintext ∧
      after = file) ∨
    file.pixKdfVerifier = none ∧ ∃ verifier,
      primitives.encrypt key verifierAad verifierPlaintext nonce =
        .ok verifier ∧
      after = { file with pixKdfVerifier := some verifier } := by
  unfold openVerifier at hopen
  split at hopen
  · rename_i stored hstored
    split at hopen
    · cases hopen
    · rename_i plaintext hplaintext
      split at hopen
      · cases hopen
      · rename_i hsame
        rw [not_not] at hsame
        cases hopen
        rw [hsame] at hplaintext
        exact Or.inl ⟨stored, hstored, hplaintext, rfl⟩
  · rename_i hnone
    split at hopen
    · cases hopen
    · rename_i verifier hverifier
      cases hopen
      exact Or.inr ⟨hnone, verifier, hverifier, rfl⟩

/-- An entry which is there stays; a new one is encrypted for its id. -/
theorem insert_eq_ok {id : PixAddressId} {secret : Vector UInt8 secretSize}
    {nonce : Vector Octet nonceSize} {wasInserted : Bool}
    (hinsert : primitives.insert file key id secret nonce =
      .ok (wasInserted, after)) :
    wasInserted = false ∧ after = file ∨
    wasInserted = true ∧ file.contains id = false ∧ ∃ stored,
      primitives.encrypt key (encodeKey id) secret nonce = .ok stored ∧
      after = { file with
        pixRecoveredKeys :=
          file.pixRecoveredKeys.insert (encodeKey id) stored } := by
  unfold Primitives.insert at hinsert
  split at hinsert
  · cases hinsert
    exact Or.inl ⟨rfl, rfl⟩
  · rename_i habsent
    split at hinsert
    · cases hinsert
    · rename_i stored hstored
      cases hinsert
      exact Or.inr ⟨rfl, by simpa using habsent, stored, hstored, rfl⟩

theorem readRow_eq_some {readable : Vector UInt8 keySize → Bool}
    {row : Vector UInt8 keySize × StoredValue Octet}
    {entry : PixAddressId × Vector UInt8 secretSize} :
    primitives.readRow key readable row = some entry ↔
      readable row.1 = true ∧ decodeKey row.1 = .ok entry.1 ∧
        primitives.decrypt key row.1 row.2 = .ok entry.2 := by
  unfold readRow
  split
  · rename_i hreadable
    split
    · rename_i hdecode
      simp [hdecode]
    · rename_i id hdecode
      split
      · rename_i hdecrypt
        simp [hdecrypt]
      · rename_i plaintext hdecrypt
        simp [hdecode, hdecrypt, hreadable, Prod.ext_iff]
  · rename_i hreadable
    simp [hreadable]

theorem foldl_iterRow (readable : Vector UInt8 keySize → Bool)
    (rows : List (Sigma fun _ : Vector UInt8 keySize => StoredValue Octet))
    (soFar : List (PixAddressId × Vector UInt8 secretSize) × ℕ) :
    rows.foldl (primitives.iterRow key readable) soFar =
      (soFar.1 ++ rows.filterMap fun row =>
          primitives.readRow key readable (row.1, row.2),
        soFar.2 + rows.countP fun row =>
          (primitives.readRow key readable (row.1, row.2)).isNone) := by
  induction rows generalizing soFar with
  | nil => simp
  | cons row rest ih =>
      rw [List.foldl_cons, ih]
      unfold iterRow
      cases hrow : primitives.readRow key readable (row.1, row.2) with
      | none => simp [hrow, Nat.add_assoc, Nat.add_comm]
      | some entry => simp [hrow]

theorem mem_iter {readable : Vector UInt8 keySize → Bool}
    {entry : PixAddressId × Vector UInt8 secretSize} :
    entry ∈ (primitives.iter file key readable).1 ↔
      ∃ stored, file.pixRecoveredKeys.lookup (encodeKey entry.1) =
          some stored ∧
        readable (encodeKey entry.1) = true ∧
        primitives.decrypt key (encodeKey entry.1) stored = .ok entry.2 := by
  unfold iter
  rw [foldl_iterRow, List.nil_append, List.mem_filterMap]
  constructor
  · intro hentry
    obtain ⟨row, hrow, hread⟩ := hentry
    obtain ⟨hreadable, hdecode, hdecrypt⟩ := readRow_eq_some.mp hread
    have hkey := encodeKey_of_decodeKey hdecode
    rw [hkey]
    exact ⟨row.2, AList.mem_lookup_iff.mpr hrow, hreadable, hdecrypt⟩
  · intro hentry
    obtain ⟨stored, hlookup, hreadable, hdecrypt⟩ := hentry
    refine ⟨⟨encodeKey entry.1, stored⟩, AList.mem_lookup_iff.mp hlookup, ?_⟩
    exact readRow_eq_some.mpr ⟨hreadable, decodeKey_encodeKey _, hdecrypt⟩

end Primitives

end HoprStrategy.RecoveryStore
