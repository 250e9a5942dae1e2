import HoprStrategy.SealedStore

/-!
# The map the recovery store stands for

As long as nobody else touches the file, the store is the map from ids to
secrets which it is used as, across closing, crashing and opening it again.
-/

namespace HoprStrategy.RecoveryStore

open Library

variable {Key Octet : Type}

/-- What the store is for: a secret for each id, from the first insertion until
it is removed. -/
abbrev RecoveryMap : Type := PixAddressId → Option (Vector UInt8 secretSize)

def RecoveryMap.apply (map : RecoveryMap) : StoreAction Octet → RecoveryMap
  | .insert id secret _ =>
      if (map id).isSome then map else Function.update map id (some secret)
  | .remove id => Function.update map id none
  | _ => map

/-- The store next to the map it stands for. -/
def mirroredStore (primitives : Primitives Key Octet) :
    TransitionSystem (StoreSession Key Octet × RecoveryMap)
      (StoreAction Octet) where
  init pair := pair = (StoreSession.initial, fun _ => none)
  next pair action :=
    (pair.1.next primitives action).map (·, pair.2.apply action)

/-- Nobody else touches the file, and the password stays the same. -/
def Untouched (password : String) (_ : StoreSession Key Octet × RecoveryMap) :
    StoreAction Octet → Prop
  | .openSalt other _ => other = password
  | .openVerifier _ | .insert _ _ _ | .remove _ | .close => True
  | _ => False

section Mirror

variable {primitives : Primitives Key Octet} {password : String}
  {session : StoreSession Key Octet} {map : RecoveryMap}

/-- The key of a password and the salt in the file. -/
def FileKey (primitives : Primitives Key Octet) (password : String)
    (file : RecoveryFile Octet) (key : Key) : Prop :=
  ∃ salt, file.pixKdfSalt = some salt ∧
    key = primitives.deriveKey password salt

structure Mirrors (primitives : Primitives Key Octet) (password : String)
    (pair : StoreSession Key Octet × RecoveryMap) : Prop where
  absent : ∀ id, pair.2 id = none →
    pair.1.file.pixRecoveredKeys.lookup (encodeKey id) = none
  present : ∀ id secret, pair.2 id = some secret →
    ∃ key stored, FileKey primitives password pair.1.file key ∧
      pair.1.file.pixRecoveredKeys.lookup (encodeKey id) = some stored ∧
      primitives.decrypt key (encodeKey id) stored = .ok secret
  verifier : ∀ stored, pair.1.file.pixKdfVerifier = some stored →
    ∃ key, FileKey primitives password pair.1.file key ∧
      primitives.decrypt key verifierAad stored = .ok verifierPlaintext
  checking : ∀ other salt, pair.1.phase = .checking other salt →
    other = password ∧ pair.1.file.pixKdfSalt = some salt
  opened : ∀ key, pair.1.phase = .opened key →
    FileKey primitives password pair.1.file key

theorem FileKey.unique {file : RecoveryFile Octet} {key other : Key}
    (hkey : FileKey primitives password file key)
    (hother : FileKey primitives password file other) : key = other := by
  obtain ⟨salt, hsalt, hkey⟩ := hkey
  obtain ⟨context, hcontext, hother⟩ := hother
  rw [hsalt, Option.some.injEq] at hcontext
  rw [hkey, hother, hcontext]

theorem Mirrors.contains_eq (hmirrors : Mirrors primitives password
    (session, map)) (id : PixAddressId) :
    session.file.contains id = (map id).isSome := by
  unfold RecoveryFile.contains
  cases hmap : map id with
  | none =>
      rw [hmirrors.absent id hmap]
      rfl
  | some secret =>
      obtain ⟨_, stored, _, hlookup, _⟩ := hmirrors.present id secret hmap
      rw [hlookup]
      rfl

theorem Mirrors.closed (hmirrors : Mirrors primitives password
    (session, map)) :
    Mirrors primitives password ({ session with phase := .closed }, map) where
  absent := hmirrors.absent
  present := hmirrors.present
  verifier := hmirrors.verifier
  checking other salt hphase := by cases hphase
  opened key hphase := by cases hphase

theorem Mirrors.openSalt (hmirrors : Mirrors primitives password
    (session, map)) {fresh salt : Vector UInt8 saltSize}
    {file : RecoveryFile Octet}
    (hopen : session.file.openSalt fresh = (salt, file)) :
    Mirrors primitives password
      ({ session with file, phase := .checking password salt }, map) := by
  have hfile := RecoveryFile.openSalt_file hopen
  -- A salt which is in the file already is the one that is used.
  have hkeys : ∀ key, FileKey primitives password session.file key →
      FileKey primitives password file key := by
    intro key hkey
    obtain ⟨old, hold, hkey⟩ := hkey
    unfold RecoveryFile.openSalt at hopen
    rw [hold] at hopen
    cases hopen
    exact ⟨salt, hold, hkey⟩
  constructor
  · intro id hmap
    rw [hfile]
    exact hmirrors.absent id hmap
  · intro id secret hmap
    obtain ⟨key, stored, hkey, hlookup, hdecrypt⟩ :=
      hmirrors.present id secret hmap
    refine ⟨key, stored, hkeys key hkey, ?_, hdecrypt⟩
    rw [hfile]
    exact hlookup
  · intro stored hstored
    rw [hfile] at hstored
    obtain ⟨key, hkey, hdecrypt⟩ := hmirrors.verifier stored hstored
    exact ⟨key, hkeys key hkey, hdecrypt⟩
  · intro other context hphase
    cases hphase
    rw [hfile]
    exact ⟨rfl, rfl⟩
  · intro key hphase
    cases hphase

theorem Mirrors.openVerifier (hmirrors : Mirrors primitives password
    (session, map)) (hideal : primitives.Ideal) {key : Key}
    (hkey : FileKey primitives password session.file key)
    {nonce : Vector Octet nonceSize} {file : RecoveryFile Octet}
    (hopen : primitives.openVerifier session.file key nonce = .ok file)
    (adopted : List (String × StoredValue Octet))
    (seen : List (StoredValue Octet)) :
    Mirrors primitives password
      ({ session with file, phase := .opened key, adopted, seen }, map) := by
  rcases Primitives.openVerifier_eq_ok hopen with hkept | hwritten
  · obtain ⟨_, _, _, hfile⟩ := hkept
    subst hfile
    refine ⟨hmirrors.absent, hmirrors.present, hmirrors.verifier, ?_, ?_⟩
    · intro other salt hphase
      cases hphase
    · intro reader hphase
      cases hphase
      exact hkey
  · obtain ⟨_, verifier, hverifier, hfile⟩ := hwritten
    subst hfile
    refine ⟨hmirrors.absent, hmirrors.present, ?_, ?_, ?_⟩
    · intro stored hstored
      cases hstored
      exact ⟨key, hkey, hideal.decrypts hverifier⟩
    · intro other salt hphase
      cases hphase
    · intro reader hphase
      cases hphase
      exact hkey

theorem Mirrors.insert (hmirrors : Mirrors primitives password
    (session, map)) (hideal : primitives.Ideal) {key : Key}
    (hkey : FileKey primitives password session.file key)
    {id : PixAddressId} {secret : Vector UInt8 secretSize}
    {nonce : Vector Octet nonceSize} {stored : StoredValue Octet}
    (hstored : primitives.encrypt key (encodeKey id) secret nonce =
      .ok stored)
    (inserted : List (PixAddressId × Vector UInt8 secretSize))
    (seen : List (StoredValue Octet)) :
    Mirrors primitives password
      ({ session with
          file := { session.file with
            pixRecoveredKeys :=
              session.file.pixRecoveredKeys.insert (encodeKey id) stored }
          inserted, seen },
        Function.update map id (some secret)) := by
  refine ⟨?_, ?_, hmirrors.verifier, hmirrors.checking, hmirrors.opened⟩
  · intro other hmap
    by_cases hsame : other = id
    · rw [hsame] at hmap
      simp at hmap
    · have hrow : encodeKey other ≠ encodeKey id :=
        fun heq => hsame (encodeKey_inj heq)
      simp only [Function.update_of_ne hsame] at hmap
      simp only [AList.lookup_insert_ne hrow]
      exact hmirrors.absent other hmap
  · intro other found hmap
    by_cases hsame : other = id
    · subst hsame
      simp only [Function.update_self, Option.some.injEq] at hmap
      subst hmap
      exact ⟨key, stored, hkey, AList.lookup_insert _,
        hideal.decrypts hstored⟩
    · have hrow : encodeKey other ≠ encodeKey id :=
        fun heq => hsame (encodeKey_inj heq)
      simp only [Function.update_of_ne hsame] at hmap
      simp only [AList.lookup_insert_ne hrow]
      exact hmirrors.present other found hmap

theorem Mirrors.remove (hmirrors : Mirrors primitives password
    (session, map)) (id : PixAddressId) :
    Mirrors primitives password
      ({ session with file := (session.file.remove id).2 },
        Function.update map id none) := by
  refine ⟨?_, ?_, hmirrors.verifier, hmirrors.checking, hmirrors.opened⟩
  · intro other hmap
    by_cases hsame : other = id
    · subst hsame
      exact AList.lookup_erase _ _
    · have hrow : encodeKey other ≠ encodeKey id :=
        fun heq => hsame (encodeKey_inj heq)
      simp only [Function.update_of_ne hsame] at hmap
      simp only [RecoveryFile.remove, AList.lookup_erase_ne hrow]
      exact hmirrors.absent other hmap
  · intro other found hmap
    by_cases hsame : other = id
    · rw [hsame] at hmap
      simp at hmap
    · have hrow : encodeKey other ≠ encodeKey id :=
        fun heq => hsame (encodeKey_inj heq)
      simp only [Function.update_of_ne hsame] at hmap
      simp only [RecoveryFile.remove, AList.lookup_erase_ne hrow]
      exact hmirrors.present other found hmap

theorem next_mirrors (hideal : primitives.Ideal)
    (htotal : ∀ key aad plaintext nonce, ∃ stored,
      primitives.encrypt key aad plaintext nonce = .ok stored)
    {after : StoreSession Key Octet} {action : StoreAction Octet}
    (hmirrors : Mirrors primitives password (session, map))
    (huntouched : Untouched password (session, map) action)
    (hnext : session.next primitives action = some after) :
    Mirrors primitives password (after, map.apply action) := by
  cases action with
  | openSalt other fresh =>
      simp only [StoreSession.next] at hnext
      split at hnext
      · cases hnext
        cases hopen : session.file.openSalt fresh with
        | mk salt file =>
            have hsame : other = password := huntouched
            rw [hsame]
            exact hmirrors.openSalt hopen
      · cases hnext
  | openVerifier nonce =>
      simp only [StoreSession.next] at hnext
      split at hnext
      · rename_i other salt hphase
        obtain ⟨hsame, hsalt⟩ := hmirrors.checking other salt hphase
        subst hsame
        split at hnext
        · cases hnext
          exact hmirrors.closed
        · rename_i file hopen
          cases hnext
          exact hmirrors.openVerifier hideal ⟨salt, hsalt, rfl⟩ hopen _ _
      · cases hnext
  | insert id secret nonce =>
      simp only [StoreSession.next] at hnext
      split at hnext
      · rename_i key hphase
        have hkey := hmirrors.opened key hphase
        have hcontains := hmirrors.contains_eq id
        simp only [RecoveryMap.apply, ← hcontains]
        unfold Primitives.insert at hnext
        by_cases hpresent : session.file.contains id
        · rw [if_pos hpresent] at hnext ⊢
          cases hnext
          exact hmirrors
        · obtain ⟨stored, hstored⟩ := htotal key (encodeKey id) secret nonce
          rw [if_neg hpresent, hstored] at hnext
          rw [if_neg hpresent]
          cases hnext
          exact hmirrors.insert hideal hkey hstored _ _
      · cases hnext
  | remove id =>
      simp only [StoreSession.next] at hnext
      split at hnext
      · cases hnext
        exact hmirrors.remove id
      · cases hnext
  | close =>
      cases hnext
      exact hmirrors.closed
  | placeRow row stored => exact huntouched.elim
  | eraseRow row => exact huntouched.elim
  | placeVerifier stored => exact huntouched.elim
  | eraseVerifier => exact huntouched.elim
  | placeSalt salt => exact huntouched.elim

/-- As long as nobody else touches the file the store is the map: its password
opens it, the ids in it are those of the map, and the entries read from it are
the map's. -/
theorem mirrors_map (hideal : primitives.Ideal)
    (htotal : ∀ key aad plaintext nonce, ∃ stored,
      primitives.encrypt key aad plaintext nonce = .ok stored)
    {pair : StoreSession Key Octet × RecoveryMap}
    (hreach : (mirroredStore primitives).ReachableWithin
      (Untouched password) pair) :
    (∀ other salt nonce, pair.1.phase = .checking other salt →
      ∃ file, primitives.openVerifier pair.1.file
        (primitives.deriveKey other salt) nonce = .ok file) ∧
    (∀ id, pair.1.file.contains id = (pair.2 id).isSome) ∧
    ∀ key id secret, pair.1.phase = .opened key →
      ((id, secret) ∈ (primitives.iter pair.1.file key fun _ => true).1 ↔
        pair.2 id = some secret) := by
  have hmirrors : Mirrors primitives password pair := by
    apply hreach.invariant
    · intro start hinit
      cases hinit
      constructor
      · intro id _
        exact AList.lookup_empty _
      · intro id secret hmap
        cases hmap
      · intro stored hstored
        cases hstored
      · intro other salt hphase
        cases hphase
      · intro key hphase
        cases hphase
    · intro before action after hbefore huntouched hnext
      obtain ⟨session, hsession, hafter⟩ := Option.map_eq_some_iff.mp hnext
      rw [← hafter]
      exact next_mirrors hideal htotal hbefore huntouched hsession
  obtain ⟨session, map⟩ := pair
  refine ⟨?_, hmirrors.contains_eq, ?_⟩
  · intro other salt nonce hphase
    obtain ⟨hsame, hsalt⟩ := hmirrors.checking other salt hphase
    subst hsame
    have hkey : FileKey primitives other session.file
        (primitives.deriveKey other salt) := ⟨salt, hsalt, rfl⟩
    unfold Primitives.openVerifier
    cases hverifier : session.file.pixKdfVerifier with
    | none =>
        obtain ⟨stored, hstored⟩ := htotal (primitives.deriveKey other salt)
          verifierAad verifierPlaintext nonce
        simp [hstored]
    | some stored =>
        obtain ⟨key, hfile, hdecrypt⟩ := hmirrors.verifier stored hverifier
        rw [hfile.unique hkey] at hdecrypt
        simp [hdecrypt]
  · intro key id secret hphase
    have hkey := hmirrors.opened key hphase
    rw [Primitives.mem_iter]
    constructor
    · intro hentry
      obtain ⟨stored, hlookup, _, hdecrypt⟩ := hentry
      cases hmap : map id with
      | none =>
          rw [hmirrors.absent id hmap] at hlookup
          cases hlookup
      | some kept =>
          obtain ⟨reader, value, hreader, hvalue, hkept⟩ :=
            hmirrors.present id kept hmap
          rw [hlookup, Option.some.injEq] at hvalue
          rw [hreader.unique hkey, ← hvalue, hdecrypt, Except.ok.injEq]
            at hkept
          rw [← hkept] at hmap
          exact hmap
    · intro hmap
      obtain ⟨reader, stored, hreader, hlookup, hdecrypt⟩ :=
        hmirrors.present id secret hmap
      rw [hreader.unique hkey] at hdecrypt
      exact ⟨stored, hlookup, rfl, hdecrypt⟩

end Mirror

end HoprStrategy.RecoveryStore
