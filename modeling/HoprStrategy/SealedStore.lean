import HoprStrategy.RecoveryStore
import HoprStrategy.Library.TransitionSystem

/-!
# The recovery store over a hostile file

The store is opened, used and closed again and again, and between any two steps
somebody without the password changes the file.  Such a person can put back any
value which was ever in it, wherever they like, or anything which opens under
no password.
-/

namespace HoprStrategy.RecoveryStore

open Library

inductive StorePhase (Key : Type) where
  | closed
  /-- Between the two transactions of `open`. -/
  | checking (password : String) (salt : Vector UInt8 saltSize)
  | opened (encryptionKey : Key)

/-- The file and the store over it, next to what has been inserted, the
verifiers with their passwords, and every value that was in the file. -/
structure StoreSession (Key Octet : Type) where
  file : RecoveryFile Octet
  phase : StorePhase Key
  inserted : List (PixAddressId × Vector UInt8 secretSize)
  adopted : List (String × StoredValue Octet)
  seen : List (StoredValue Octet)

inductive StoreAction (Octet : Type) where
  | openSalt (password : String) (fresh : Vector UInt8 saltSize)
  | openVerifier (nonce : Vector Octet nonceSize)
  | insert (id : PixAddressId) (secret : Vector UInt8 secretSize)
      (nonce : Vector Octet nonceSize)
  | remove (id : PixAddressId)
  /-- Also a crash, at any point. -/
  | close
  | placeRow (row : Vector UInt8 keySize) (stored : StoredValue Octet)
  | eraseRow (row : Vector UInt8 keySize)
  | placeVerifier (stored : StoredValue Octet)
  | eraseVerifier
  | placeSalt (salt : Option (Vector UInt8 saltSize))

variable {Key Octet : Type}

namespace StoreSession

def next (primitives : Primitives Key Octet)
    (session : StoreSession Key Octet) :
    StoreAction Octet → Option (StoreSession Key Octet)
  | .openSalt password fresh =>
      match session.phase with
      | .closed =>
          let (salt, file) := session.file.openSalt fresh
          some { session with file, phase := .checking password salt }
      | _ => none
  | .openVerifier nonce =>
      match session.phase with
      | .checking password salt =>
          let key := primitives.deriveKey password salt
          match primitives.openVerifier session.file key nonce with
          | .error _ => some { session with phase := .closed }
          | .ok file =>
              let written :=
                if session.file.pixKdfVerifier.isSome then []
                else file.pixKdfVerifier.toList
              some { session with
                file
                phase := .opened key
                adopted := written.map (password, ·) ++ session.adopted
                seen := written ++ session.seen }
      | _ => none
  | .insert id secret nonce =>
      match session.phase with
      | .opened key =>
          match primitives.insert session.file key id secret nonce with
          | .error _ => some session
          | .ok (false, file) => some { session with file }
          | .ok (true, file) =>
              some { session with
                file
                inserted := (id, secret) :: session.inserted
                seen := (file.pixRecoveredKeys.lookup (encodeKey id)).toList ++
                  session.seen }
      | _ => none
  | .remove id =>
      match session.phase with
      | .opened _ => some { session with file := (session.file.remove id).2 }
      | _ => none
  | .close => some { session with phase := .closed }
  | .placeRow row stored =>
      some { session with file := { session.file with
        pixRecoveredKeys := session.file.pixRecoveredKeys.insert row stored } }
  | .eraseRow row =>
      some { session with file := { session.file with
        pixRecoveredKeys := session.file.pixRecoveredKeys.erase row } }
  | .placeVerifier stored =>
      some { session with
        file := { session.file with pixKdfVerifier := some stored } }
  | .eraseVerifier =>
      some { session with file := { session.file with pixKdfVerifier := none } }
  | .placeSalt salt =>
      some { session with file := { session.file with pixKdfSalt := salt } }

def initial : StoreSession Key Octet :=
  ⟨⟨none, ∅, none⟩, .closed, [], [], []⟩

end StoreSession

def recoveryStore (primitives : Primitives Key Octet) :
    TransitionSystem (StoreSession Key Octet) (StoreAction Octet) where
  init session := session = StoreSession.initial
  next := StoreSession.next primitives

/-- A value no password opens anywhere. -/
def Unreadable (primitives : Primitives Key Octet)
    (stored : StoredValue Octet) : Prop :=
  ∀ password salt aad plaintext,
    primitives.decrypt (primitives.deriveKey password salt) aad stored ≠
      .ok plaintext

/-- The value was in the file before, or is not made with any password. -/
def StoreSession.Known (primitives : Primitives Key Octet)
    (session : StoreSession Key Octet) (stored : StoredValue Octet) : Prop :=
  stored ∈ session.seen ∨ Unreadable primitives stored

/-- Everything put into the file from outside is such a value. -/
def WithoutPassword (primitives : Primitives Key Octet)
    (session : StoreSession Key Octet) : StoreAction Octet → Prop
  | .placeRow _ stored | .placeVerifier stored =>
      session.Known primitives stored
  | _ => True

namespace StoreSession

variable {primitives : Primitives Key Octet}
  {session before after : StoreSession Key Octet}

/-- The value was made for an insertion, under a key of some password. -/
def Entered (primitives : Primitives Key Octet)
    (session : StoreSession Key Octet) (stored : StoredValue Octet) : Prop :=
  ∃ entry ∈ session.inserted, ∃ key nonce,
    primitives.encrypt key (encodeKey entry.1) entry.2 nonce = .ok stored

/-- Where every value in the file comes from. -/
structure Sealed (primitives : Primitives Key Octet)
    (session : StoreSession Key Octet) : Prop where
  adopted : ∀ adoption ∈ session.adopted, ∃ salt nonce,
    primitives.encrypt (primitives.deriveKey adoption.1 salt) verifierAad
      verifierPlaintext nonce = .ok adoption.2
  seen : ∀ stored ∈ session.seen,
    (∃ password, (password, stored) ∈ session.adopted) ∨
      session.Entered primitives stored
  rows : ∀ row stored, session.file.pixRecoveredKeys.lookup row = some stored →
    session.Known primitives stored
  verifier : ∀ stored, session.file.pixKdfVerifier = some stored →
    session.Known primitives stored
  opened : ∀ key, session.phase = .opened key →
    ∃ password salt, key = primitives.deriveKey password salt

theorem initial_sealed :
    Sealed primitives (initial : StoreSession Key Octet) where
  adopted adoption hadoption := by cases hadoption
  seen stored hstored := by cases hstored
  rows row stored hlookup := by cases hlookup
  verifier stored hstored := by cases hstored
  opened key hphase := by cases hphase

theorem Sealed.lock (hsealed : session.Sealed primitives)
    {phase : StorePhase Key} (hphase : ∀ key, phase ≠ .opened key) :
    Sealed primitives { session with phase := phase } where
  adopted := hsealed.adopted
  seen := hsealed.seen
  rows := hsealed.rows
  verifier := hsealed.verifier
  opened key hopened := absurd hopened (hphase key)

theorem Sealed.closed (hsealed : session.Sealed primitives) :
    Sealed primitives { session with phase := .closed } := by
  apply hsealed.lock
  intro key hopened
  cases hopened

theorem Sealed.unlock (hsealed : session.Sealed primitives)
    (password : String) (salt : Vector UInt8 saltSize) :
    Sealed primitives { session with
      phase := .opened (primitives.deriveKey password salt) } where
  adopted := hsealed.adopted
  seen := hsealed.seen
  rows := hsealed.rows
  verifier := hsealed.verifier
  opened key hphase := by
    cases hphase
    exact ⟨password, salt, rfl⟩

theorem Sealed.salt (hsealed : session.Sealed primitives)
    (salt : Option (Vector UInt8 saltSize)) :
    Sealed primitives { session with
      file := { session.file with pixKdfSalt := salt } } :=
  ⟨hsealed.adopted, hsealed.seen, hsealed.rows, hsealed.verifier,
    hsealed.opened⟩

theorem Sealed.place (hsealed : session.Sealed primitives)
    (row : Vector UInt8 keySize) {stored : StoredValue Octet}
    (hknown : session.Known primitives stored) :
    Sealed primitives { session with
      file := { session.file with
        pixRecoveredKeys :=
          session.file.pixRecoveredKeys.insert row stored } } where
  adopted := hsealed.adopted
  seen := hsealed.seen
  rows other found hlookup := by
    by_cases hsame : other = row
    · rw [hsame, AList.lookup_insert, Option.some.injEq] at hlookup
      rw [← hlookup]
      exact hknown
    · rw [AList.lookup_insert_ne hsame] at hlookup
      exact hsealed.rows other found hlookup
  verifier := hsealed.verifier
  opened := hsealed.opened

theorem Sealed.erase (hsealed : session.Sealed primitives)
    (row : Vector UInt8 keySize) :
    Sealed primitives { session with
      file := { session.file with
        pixRecoveredKeys := session.file.pixRecoveredKeys.erase row } } where
  adopted := hsealed.adopted
  seen := hsealed.seen
  rows other found hlookup := by
    by_cases hsame : other = row
    · rw [hsame, AList.lookup_erase] at hlookup
      cases hlookup
    · rw [AList.lookup_erase_ne hsame] at hlookup
      exact hsealed.rows other found hlookup
  verifier := hsealed.verifier
  opened := hsealed.opened

theorem Sealed.placeVerifier (hsealed : session.Sealed primitives)
    {verifier : Option (StoredValue Octet)}
    (hknown : ∀ stored, verifier = some stored →
      session.Known primitives stored) :
    Sealed primitives { session with
      file := { session.file with pixKdfVerifier := verifier } } where
  adopted := hsealed.adopted
  seen := hsealed.seen
  rows := hsealed.rows
  verifier := hknown
  opened := hsealed.opened

/-- A value made for an insertion becomes known with it. -/
theorem Sealed.enter (hsealed : session.Sealed primitives)
    {id : PixAddressId} {secret : Vector UInt8 secretSize} {key : Key}
    {nonce : Vector Octet nonceSize} {stored : StoredValue Octet}
    (hstored : primitives.encrypt key (encodeKey id) secret nonce =
      .ok stored) :
    Sealed primitives { session with
      inserted := (id, secret) :: session.inserted
      seen := stored :: session.seen } where
  adopted := hsealed.adopted
  seen found hfound := by
    rcases List.mem_cons.mp hfound with heq | hold
    · rw [heq]
      exact Or.inr ⟨(id, secret), List.mem_cons_self, key, nonce, hstored⟩
    · rcases hsealed.seen found hold with hadopted | hentered
      · exact Or.inl hadopted
      · obtain ⟨entry, hentry, hmade⟩ := hentered
        exact Or.inr ⟨entry, List.mem_cons_of_mem _ hentry, hmade⟩
  rows row found hlookup :=
    (hsealed.rows row found hlookup).imp_left (List.mem_cons_of_mem _)
  verifier found hfound :=
    (hsealed.verifier found hfound).imp_left (List.mem_cons_of_mem _)
  opened := hsealed.opened

/-- A verifier becomes known with the password it is made under. -/
theorem Sealed.adopt (hsealed : session.Sealed primitives)
    {password : String} {salt : Vector UInt8 saltSize}
    {nonce : Vector Octet nonceSize} {verifier : StoredValue Octet}
    (hverifier : primitives.encrypt (primitives.deriveKey password salt)
      verifierAad verifierPlaintext nonce = .ok verifier) :
    Sealed primitives { session with
      adopted := (password, verifier) :: session.adopted
      seen := verifier :: session.seen } where
  adopted adoption hadoption := by
    rcases List.mem_cons.mp hadoption with heq | hold
    · rw [heq]
      exact ⟨salt, nonce, hverifier⟩
    · exact hsealed.adopted adoption hold
  seen found hfound := by
    rcases List.mem_cons.mp hfound with heq | hold
    · rw [heq]
      exact Or.inl ⟨password, List.mem_cons_self⟩
    · rcases hsealed.seen found hold with hadopted | hentered
      · obtain ⟨other, hother⟩ := hadopted
        exact Or.inl ⟨other, List.mem_cons_of_mem _ hother⟩
      · exact Or.inr hentered
  rows row found hlookup :=
    (hsealed.rows row found hlookup).imp_left (List.mem_cons_of_mem _)
  verifier found hfound :=
    (hsealed.verifier found hfound).imp_left (List.mem_cons_of_mem _)
  opened := hsealed.opened

theorem next_sealed {action : StoreAction Octet}
    (hsealed : before.Sealed primitives)
    (hallowed : WithoutPassword primitives before action)
    (hnext : next primitives before action = some after) :
    after.Sealed primitives := by
  cases action with
  | openSalt password fresh =>
      simp only [next] at hnext
      split at hnext
      · rename_i hphase
        cases hnext
        cases hopen : before.file.openSalt fresh with
        | mk salt file =>
            rw [RecoveryFile.openSalt_file hopen]
            apply Sealed.lock (hsealed.salt (some salt))
            intro key hopened
            cases hopened
      · cases hnext
  | openVerifier nonce =>
      simp only [next] at hnext
      split at hnext
      · rename_i password salt hphase
        split at hnext
        · cases hnext
          exact hsealed.closed
        · rename_i file hopen
          rcases Primitives.openVerifier_eq_ok hopen with hkept | hwritten
          · obtain ⟨stored, hstored, _, hfile⟩ := hkept
            subst hfile
            rw [hstored] at hnext
            cases hnext
            exact hsealed.unlock password salt
          · obtain ⟨hnone, verifier, hverifier, hfile⟩ := hwritten
            subst hfile
            rw [hnone] at hnext
            cases hnext
            have hadopted := hsealed.adopt hverifier
            apply Sealed.unlock (hadopted.placeVerifier ?_) password salt
            intro stored hstored
            cases hstored
            exact Or.inl List.mem_cons_self
      · cases hnext
  | insert id secret nonce =>
      simp only [next] at hnext
      split at hnext
      · rename_i key hphase
        split at hnext
        · cases hnext
          exact hsealed
        · rename_i file hinsert
          cases hnext
          rcases Primitives.insert_eq_ok hinsert with ⟨_, hfile⟩ | ⟨hfalse, _⟩
          · rw [hfile]
            exact hsealed
          · cases hfalse
        · rename_i file hinsert
          cases hnext
          rcases Primitives.insert_eq_ok hinsert with ⟨hfalse, _⟩ | hnew
          · cases hfalse
          · obtain ⟨_, _, stored, hstored, hfile⟩ := hnew
            subst hfile
            simp only [AList.lookup_insert, Option.toList_some,
              List.singleton_append]
            exact (hsealed.enter hstored).place (encodeKey id)
              (Or.inl List.mem_cons_self)
      · cases hnext
  | remove id =>
      simp only [next] at hnext
      split at hnext
      · cases hnext
        exact hsealed.erase (encodeKey id)
      · cases hnext
  | close =>
      cases hnext
      exact hsealed.closed
  | placeRow row stored =>
      cases hnext
      exact hsealed.place row hallowed
  | eraseRow row =>
      cases hnext
      exact hsealed.erase row
  | placeVerifier stored =>
      cases hnext
      apply hsealed.placeVerifier
      intro found hfound
      cases hfound
      exact hallowed
  | eraseVerifier =>
      cases hnext
      apply hsealed.placeVerifier
      intro found hfound
      cases hfound
  | placeSalt salt =>
      cases hnext
      exact hsealed.salt salt

theorem Sealed.iter_inserted (hsealed : session.Sealed primitives)
    (hideal : primitives.Ideal) {key : Key}
    (hphase : session.phase = .opened key)
    {readable : Vector UInt8 keySize → Bool}
    {entry : PixAddressId × Vector UInt8 secretSize}
    (hentry : entry ∈ (primitives.iter session.file key readable).1) :
    entry ∈ session.inserted := by
  obtain ⟨stored, hlookup, _, hdecrypt⟩ := Primitives.mem_iter.mp hentry
  rcases hsealed.rows _ stored hlookup with hseen | hunreadable
  · rcases hsealed.seen stored hseen with hadopted | hentered
    · -- A verifier is bound to a row which is no id's.
      obtain ⟨password, hadoption⟩ := hadopted
      obtain ⟨salt, nonce, hmade⟩ := hsealed.adopted _ hadoption
      obtain ⟨_, hrow, _⟩ := hideal.origin hmade hdecrypt
      exact absurd hrow (encodeKey_ne_verifierAad _)
    · obtain ⟨origin, horigin, maker, nonce, hmade⟩ := hentered
      obtain ⟨_, hrow, hsecret⟩ := hideal.origin hmade hdecrypt
      have hsame : entry = origin := Prod.ext (encodeKey_inj hrow) hsecret
      rw [hsame]
      exact horigin
  · obtain ⟨password, salt, hkey⟩ := hsealed.opened key hphase
    rw [hkey] at hdecrypt
    exact absurd hdecrypt (hunreadable password salt _ _)

theorem Sealed.opens_under (hsealed : session.Sealed primitives)
    (hideal : primitives.Ideal) {verifier : StoredValue Octet}
    (hverifier : session.file.pixKdfVerifier = some verifier)
    {password : String} {salt : Vector UInt8 saltSize}
    {nonce : Vector Octet nonceSize} {file : RecoveryFile Octet}
    (hopen : primitives.openVerifier session.file
      (primitives.deriveKey password salt) nonce = .ok file) :
    (password, verifier) ∈ session.adopted ∧
      ∀ other, (other, verifier) ∈ session.adopted → other = password := by
  have hdecrypt : primitives.decrypt (primitives.deriveKey password salt)
      verifierAad verifier = .ok verifierPlaintext := by
    rcases Primitives.openVerifier_eq_ok hopen with hkept | ⟨hnone, _⟩
    · obtain ⟨stored, hstored, hdecrypt, _⟩ := hkept
      rw [hverifier, Option.some.injEq] at hstored
      rw [hstored]
      exact hdecrypt
    · rw [hverifier] at hnone
      cases hnone
  have hadopters : ∀ other, (other, verifier) ∈ session.adopted →
      other = password := by
    intro other hother
    obtain ⟨context, used, hmade⟩ := hsealed.adopted _ hother
    obtain ⟨hkey, _, _⟩ := hideal.origin hmade hdecrypt
    exact (hideal.scrypt hkey).symm
  rcases hsealed.verifier verifier hverifier with hseen | hunreadable
  · rcases hsealed.seen verifier hseen with hadopted | hentered
    · obtain ⟨other, hother⟩ := hadopted
      have hsame := hadopters other hother
      subst hsame
      exact ⟨hother, hadopters⟩
    · -- A value made for an entry is bound to the row of its id.
      obtain ⟨origin, _, maker, used, hmade⟩ := hentered
      obtain ⟨_, hrow, _⟩ := hideal.origin hmade hdecrypt
      exact absurd hrow.symm (encodeKey_ne_verifierAad _)
  · exact absurd hdecrypt (hunreadable password salt _ _)

theorem insert_keeps {id : PixAddressId} {secret : Vector UInt8 secretSize}
    {nonce : Vector Octet nonceSize}
    (hnext : next primitives session (.insert id secret nonce) = some after)
    {row : Vector UInt8 keySize} {stored : StoredValue Octet}
    (hlookup : session.file.pixRecoveredKeys.lookup row = some stored) :
    after.file.pixRecoveredKeys.lookup row = some stored := by
  have hkeeps : ∀ key wasInserted file,
      primitives.insert session.file key id secret nonce =
        .ok (wasInserted, file) →
      file.pixRecoveredKeys.lookup row = some stored := by
    intro key wasInserted file hinsert
    rcases Primitives.insert_eq_ok hinsert with ⟨_, hfile⟩ | hnew
    · rw [hfile]
      exact hlookup
    · obtain ⟨_, habsent, value, _, hfile⟩ := hnew
      subst hfile
      by_cases hrow : row = encodeKey id
      · rw [RecoveryFile.contains, ← hrow, hlookup] at habsent
        cases habsent
      · rw [AList.lookup_insert_ne hrow]
        exact hlookup
  simp only [next] at hnext
  split at hnext
  · split at hnext
    · cases hnext
      exact hlookup
    · rename_i hinsert
      cases hnext
      exact hkeeps _ _ _ hinsert
    · rename_i hinsert
      cases hnext
      exact hkeeps _ _ _ hinsert
  · cases hnext

/-- Whatever somebody without the password does to the file, only what was
inserted under an id is read back under it, no entry is written over, and where
there is a verifier the store opens only under the password it was made
with. -/
theorem behavesAsMap (primitives : Primitives Key Octet)
    (hideal : primitives.Ideal)
    (hreach : (recoveryStore primitives).ReachableWithin
      (WithoutPassword primitives) session) :
    (∀ key readable entry, session.phase = .opened key →
      entry ∈ (primitives.iter session.file key readable).1 →
      entry ∈ session.inserted) ∧
    (∀ id secret nonce after row stored,
      next primitives session (.insert id secret nonce) = some after →
      session.file.pixRecoveredKeys.lookup row = some stored →
      after.file.pixRecoveredKeys.lookup row = some stored) ∧
    ∀ password salt nonce verifier after encryptionKey,
      session.phase = .checking password salt →
      session.file.pixKdfVerifier = some verifier →
      next primitives session (.openVerifier nonce) = some after →
      after.phase = .opened encryptionKey →
      (password, verifier) ∈ session.adopted ∧
        ∀ other, (other, verifier) ∈ session.adopted → other = password := by
  have hsealed : session.Sealed primitives := by
    apply hreach.invariant
    · intro start hinit
      cases hinit
      exact initial_sealed
    · intro before action after hbefore hallowed hnext
      exact next_sealed hbefore hallowed hnext
  refine ⟨?_, ?_, ?_⟩
  · intro key readable entry hphase hentry
    exact hsealed.iter_inserted hideal hphase hentry
  · intro id secret nonce after row stored hnext hlookup
    exact insert_keeps hnext hlookup
  · intro password salt nonce verifier after encryptionKey hphase hverifier
      hnext hopened
    simp only [next, hphase] at hnext
    split at hnext
    · cases hnext
      cases hopened
    · rename_i hopen
      exact hsealed.opens_under hideal hverifier hopen

/-- Octets which are blank or hold what a ciphertext was made of. -/
abbrev SymbolicOctet : Type :=
  Option ((String × Vector UInt8 saltSize) × Vector UInt8 keySize ×
    Vector UInt8 secretSize)

abbrev SymbolicAead : Type :=
  Aead (String × Vector UInt8 saltSize) (Vector SymbolicOctet nonceSize)
    (Vector UInt8 keySize) (Vector UInt8 secretSize)
    (Vector SymbolicOctet cipherSize)

def symbolicAead : SymbolicAead :=
  .symbolic (fun made => Vector.replicate cipherSize (some made))
    fun cipher => cipher[0]

theorem symbolicAead_ideal : symbolicAead.Ideal := by
  unfold symbolicAead
  apply Aead.symbolic_ideal
  intro made
  simp

def symbolicPrimitives :
    Primitives (String × Vector UInt8 saltSize) SymbolicOctet where
  scrypt password salt := (password, salt)
  chaCha20Poly1305 := symbolicAead

theorem symbolicPrimitives_ideal : symbolicPrimitives.Ideal where
  scrypt heq := congrArg Prod.fst heq
  chaCha20Poly1305 := symbolicAead_ideal

def firstId : PixAddressId := ⟨Vector.replicate pseudonymSize 7, 1, by decide⟩

def secondId : PixAddressId := ⟨Vector.replicate pseudonymSize 7, 2, by decide⟩

def firstSalt : Vector UInt8 saltSize := Vector.replicate saltSize 5

def firstSecret : Vector UInt8 secretSize := Vector.replicate secretSize 3

def blankNonce : Vector SymbolicOctet nonceSize := Vector.replicate nonceSize none

def firstStored : StoredValue SymbolicOctet :=
  blankNonce ++ Vector.replicate cipherSize
    (some (("password", firstSalt), encodeKey firstId, firstSecret))

/-- A stored value is copied to the row of another id, and the store is opened
again. -/
theorem behavesAsMap_copied :
    ∃ session, (recoveryStore symbolicPrimitives).ReachableWithin
        (WithoutPassword symbolicPrimitives) session ∧
      session.inserted = [(firstId, firstSecret)] ∧
      session.file.pixRecoveredKeys.keys =
        [encodeKey secondId, encodeKey firstId] ∧
      ∀ key readable entry, session.phase = .opened key →
        entry ∈ (symbolicPrimitives.iter session.file key readable).1 →
        entry ∈ session.inserted := by
  have hinit : (recoveryStore symbolicPrimitives).ReachableWithin
      (WithoutPassword symbolicPrimitives) initial := .init rfl
  have hinserted := hinit.run
    [.openSalt "password" firstSalt, .openVerifier blankNonce,
      .insert firstId firstSecret blankNonce] ?_ rfl
  · have hcopied := @TransitionSystem.ReachableWithin.step _ _ _ _ _ _
      (.placeRow (encodeKey secondId) firstStored) hinserted
      (by exact Or.inl List.mem_cons_self) rfl
    have hreopened := hcopied.run
      [.close, .openSalt "password" firstSalt, .openVerifier blankNonce]
      ?_ rfl
    · exact ⟨_, hreopened, rfl, rfl,
        (behavesAsMap symbolicPrimitives symbolicPrimitives_ideal hreopened).1⟩
    · intro before action hmem
      fin_cases hmem
      all_goals trivial
  · intro before action hmem
    fin_cases hmem
    all_goals trivial

end StoreSession

end HoprStrategy.RecoveryStore
