import HoprStrategy.HoprBalance
import HoprStrategy.Library.Fallible

/-!
# Ownership detection of Curvy notes

The index publishes every note anyone ever sent.  A watched allocation owns a
note when its viewer recognises the announcement and the note id recomputed
from its owner point is the published one.  The primitives of `curvy-core` are
parameters of the detector.
-/

namespace HoprStrategy.Curvy

open Library

/-- Where an event stands in the index. -/
structure CurvyEventCursor where
  block : ℕ
  transactionIndex : ℕ
  logIndex : ℕ
  eventItemIndex : ℕ
  deriving DecidableEq

def CurvyEventCursor.key (cursor : CurvyEventCursor) : ℕ ×ₗ ℕ ×ₗ ℕ ×ₗ ℕ :=
  toLex (cursor.block, toLex (cursor.transactionIndex,
    toLex (cursor.logIndex, cursor.eventItemIndex)))

theorem CurvyEventCursor.key_injective :
    Function.Injective CurvyEventCursor.key := by
  intro left right hkey
  cases left
  cases right
  simpa [CurvyEventCursor.key] using hkey

instance : LinearOrder CurvyEventCursor :=
  LinearOrder.lift' CurvyEventCursor.key CurvyEventCursor.key_injective

/-- A pending-note announcement as the index serves it. -/
structure CurvyPendingNote where
  position : CurvyEventCursor
  noteId : String
  amount : String
  tokenId : String
  ephemeralKey : List String
  viewTag : ℤ
  isPlaintext : Bool
  deriving DecidableEq

section

variable (Id Addr Secret Field Owner Note : Type)

structure OwnedCurvyDeposit where
  id : Id
  address : Addr
  amount : HoprBalance
  deriving DecidableEq

structure DetectedCurvyNote where
  deposit : OwnedCurvyDeposit Id Addr
  note : Note
  deriving DecidableEq

structure WatchedAllocation where
  id : Id
  address : Addr
  scanSecret : Secret
  deriving DecidableEq

/-- The parsed fields of an announcement. -/
structure Announcement where
  noteId : Field
  encryptedAmount : Field
  encryptedToken : Field
  ephemeralKey : Field × Field
  viewTag : Field
  isPlaintext : Bool

structure ScanMatch where
  index : ℕ
  spendingPubKey : String

/-- What the detector takes from other crates, and the token it is restricted
to. -/
structure CurvyNoteDetector where
  expectedToken : Field
  /-- `U256::from_str_radix`. -/
  fromStrRadix : String → ℕ → Except String ℕ
  /-- `fr_from_be_32_checked`, which refuses what is not canonical. -/
  fieldChecked : ℕ → Option Field
  /-- `fr_from_be_bytes_mod`. -/
  fieldMod : ℕ → Field
  /-- `Bn254Fr::try_from_dec`. -/
  fieldFromDec : String → Except String Field
  viewTagField : UInt8 → Field
  bjjPoint : Addr → Except String Owner
  viewerScan :
    Secret → Field × Field → UInt8 → Except String (List ScanMatch)
  decryptAmountToken : Field → Field → Field → Field × Field → Field × Field
  knownOwnerNote :
    Owner → Field → Field → Field → Field × Field → Field → Note
  noteId : Note → Field
  toBalance : Field → HoprBalance

end

variable {Id Addr Secret Field Owner Note : Type} [DecidableEq Field]

/-- The only detection error: the public event is malformed. -/
structure InvalidCandidate where
  text : String
  deriving DecidableEq

def stripHexPrefix : List Char → Option (List Char)
  | '0' :: 'x' :: rest => some rest
  | '0' :: 'X' :: rest => some rest
  | _ => none

namespace CurvyNoteDetector

variable (detector : CurvyNoteDetector Addr Secret Field Owner Note)

/-- A `0x`-prefixed note id of 32 bytes, as a canonical field element. -/
def parseNoteId (value : String) : Except InvalidCandidate Field :=
  match stripHexPrefix value.toList with
  | none => .error ⟨"deposit note id must use 0x-prefixed Hex32 encoding"⟩
  | some encoded =>
      if (encoded.map Char.utf8Size).sum ≠ 64 then
        .error ⟨"deposit note id must contain exactly 32 bytes"⟩
      else
        match detector.fromStrRadix (String.ofList encoded) 16 with
        | .error text => .error ⟨s!"invalid deposit note id: {text}"⟩
        | .ok noteId =>
            match detector.fieldChecked noteId with
            | none => .error
                ⟨"deposit note id is not a canonical BN254 field element"⟩
            | some noteId => .ok noteId

def parseField (value field : String) : Except InvalidCandidate Field :=
  match detector.fieldFromDec value with
  | .error text => .error ⟨s!"invalid {field}: {text}"⟩
  | .ok value => .ok value

/-- The shared secret is the `x` of the spending public key a scan yields. -/
def sharedSecretFromScanMatch (spendingPublicKey : String) :
    Except InvalidCandidate Field :=
  let (x, rest) := spendingPublicKey.toList.span (· ≠ '.')
  match rest with
  | [] => .error ⟨"Curvy scan returned a malformed spending public key"⟩
  | _ :: y =>
      match detector.fromStrRadix (String.ofList x) 10 with
      | .error text =>
          .error ⟨s!"invalid scanned spending public key x: {text}"⟩
      | .ok x =>
      match detector.fromStrRadix (String.ofList y) 10 with
      | .error text =>
          .error ⟨s!"invalid scanned spending public key y: {text}"⟩
      | .ok _ => .ok (detector.fieldMod x)

/-- The checks on the public event alone, in the order of the source. -/
def parseCandidate (candidate : CurvyPendingNote) :
    Except InvalidCandidate (Announcement Field × UInt8) :=
  do
    let noteId ← detector.parseNoteId candidate.noteId
    let amount ← detector.parseField candidate.amount "amount"
    let token ← detector.parseField candidate.tokenId "token"
    match candidate.ephemeralKey with
    | [x, y] =>
        let x ← detector.parseField x "ephemeral key x"
        let y ← detector.parseField y "ephemeral key y"
        if 0 ≤ candidate.viewTag ∧ candidate.viewTag < 256 then
          let viewTag := UInt8.ofNat candidate.viewTag.toNat
          .ok (⟨noteId, amount, token, (x, y), detector.viewTagField viewTag,
            candidate.isPlaintext⟩, viewTag)
        else .error ⟨"view tag must fit into one byte"⟩
    | _ => .error ⟨"ephemeral key must contain exactly two coordinates"⟩

/-- What one watched allocation makes of an announcement. -/
inductive Verdict (Note : Type) where
  | notOurs
  | recomputed (amount : HoprBalance) (note : Note)
  | invalid (error : InvalidCandidate)

def judge (announcement : Announcement Field) (viewTag : UInt8)
    (allocation : WatchedAllocation Id Addr Secret) : Verdict Note :=
  match detector.bjjPoint allocation.address with
  | .error _ => .notOurs
  | .ok owner =>
  match detector.viewerScan allocation.scanSecret announcement.ephemeralKey
      viewTag with
  | .error text => .invalid ⟨s!"Curvy viewer scan failed: {text}"⟩
  | .ok [] => .notOurs
  | .ok (scanMatch :: _) =>
      if scanMatch.index ≠ 0 then
        .invalid
          ⟨"single-note Curvy viewer scan returned an invalid match index"⟩
      else
        match detector.sharedSecretFromScanMatch scanMatch.spendingPubKey with
        | .error error => .invalid error
        | .ok sharedSecret =>
            let (amount, token) :=
              if announcement.isPlaintext then
                (announcement.encryptedAmount, announcement.encryptedToken)
              else
                detector.decryptAmountToken announcement.encryptedAmount
                  announcement.encryptedToken sharedSecret
                  announcement.ephemeralKey
            if token ≠ detector.expectedToken then .notOurs
            else
              let note := detector.knownOwnerNote owner sharedSecret amount
                token announcement.ephemeralKey announcement.viewTag
              if detector.noteId note = announcement.noteId then
                .recomputed (detector.toBalance amount) note
              else .notOurs

/-- The loop over the watched allocations.  A zero amount pays nothing. -/
def firstOwner (announcement : Announcement Field) (viewTag : UInt8) :
    List (WatchedAllocation Id Addr Secret) →
      Except InvalidCandidate (Option (DetectedCurvyNote Id Addr Note))
  | [] => .ok none
  | allocation :: rest =>
      match detector.judge announcement viewTag allocation with
      | .notOurs => firstOwner announcement viewTag rest
      | .invalid error => .error error
      | .recomputed amount note =>
          if amount.isZero then .ok none
          else
            .ok (some ⟨⟨allocation.id, allocation.address, amount⟩, note⟩)

def detectOwnedNote (candidate : CurvyPendingNote)
    (watched : List (WatchedAllocation Id Addr Secret)) :
    Except InvalidCandidate (Option (DetectedCurvyNote Id Addr Note)) :=
  match detector.parseCandidate candidate with
  | .error error => .error error
  | .ok (announcement, viewTag) =>
      detector.firstOwner announcement viewTag watched

/-- The allocation recomputes the published note id, with an amount. -/
def Owns (allocation : WatchedAllocation Id Addr Secret)
    (candidate : CurvyPendingNote) : Prop :=
  ∃ announcement viewTag amount note,
    detector.parseCandidate candidate = .ok (announcement, viewTag) ∧
    detector.judge announcement viewTag allocation =
      .recomputed amount note ∧
    amount.isZero = false

/-- The scan fails only for malformed announcements, whoever scans, and no two
of the registered allocations recompute the same note id. -/
structure Sound (registered : Set (WatchedAllocation Id Addr Secret)) :
    Prop where
  scan : ∀ candidate announcement viewTag,
    ∀ allocation ∈ registered, ∀ other ∈ registered, ∀ amount note error,
    detector.parseCandidate candidate = .ok (announcement, viewTag) →
    detector.judge announcement viewTag allocation =
      .recomputed amount note →
    detector.judge announcement viewTag other ≠ .invalid error
  unique : ∀ announcement viewTag announcement' viewTag',
    ∀ allocation ∈ registered, ∀ other ∈ registered,
    ∀ amount note amount' note',
    detector.judge announcement viewTag allocation =
      .recomputed amount note →
    detector.judge announcement' viewTag' other =
      .recomputed amount' note' →
    announcement.noteId = announcement'.noteId →
      allocation.id = other.id ∧ amount = amount'

variable {detector} {registered : Set (WatchedAllocation Id Addr Secret)}

omit [DecidableEq Field] in
theorem parseCandidate_noteId {candidate : CurvyPendingNote}
    {announcement : Announcement Field} {viewTag : UInt8}
    (hparse : detector.parseCandidate candidate = .ok (announcement, viewTag)) :
    detector.parseNoteId candidate.noteId = .ok announcement.noteId := by
  obtain ⟨noteId, hid, hparse⟩ := bind_eq_ok.mp hparse
  obtain ⟨amount, _, hparse⟩ := bind_eq_ok.mp hparse
  obtain ⟨token, _, hparse⟩ := bind_eq_ok.mp hparse
  split at hparse
  next x y _ =>
    obtain ⟨x, _, hparse⟩ := bind_eq_ok.mp hparse
    obtain ⟨y, _, hparse⟩ := bind_eq_ok.mp hparse
    split at hparse
    next =>
      cases hparse
      exact hid
    next => cases hparse
  next => cases hparse

/-- The amount and the token of an announcement. -/
def decrypted (detector : CurvyNoteDetector Addr Secret Field Owner Note)
    (announcement : Announcement Field) (sharedSecret : Field) :
    Field × Field :=
  if announcement.isPlaintext then
    (announcement.encryptedAmount, announcement.encryptedToken)
  else
    detector.decryptAmountToken announcement.encryptedAmount
      announcement.encryptedToken sharedSecret announcement.ephemeralKey

theorem judge_of_found {announcement : Announcement Field} {viewTag : UInt8}
    {allocation : WatchedAllocation Id Addr Secret} {owner : Owner}
    {scanMatch : ScanMatch} {rest : List ScanMatch} {sharedSecret : Field}
    (hpoint : detector.bjjPoint allocation.address = .ok owner)
    (hscan : detector.viewerScan allocation.scanSecret
      announcement.ephemeralKey viewTag = .ok (scanMatch :: rest))
    (hindex : scanMatch.index = 0)
    (hsecret : detector.sharedSecretFromScanMatch scanMatch.spendingPubKey =
      .ok sharedSecret) :
    detector.judge announcement viewTag allocation =
      if (detector.decrypted announcement sharedSecret).2 ≠
          detector.expectedToken then .notOurs
      else if detector.noteId (detector.knownOwnerNote owner sharedSecret
          (detector.decrypted announcement sharedSecret).1
          (detector.decrypted announcement sharedSecret).2
          announcement.ephemeralKey announcement.viewTag) =
            announcement.noteId then
        .recomputed
          (detector.toBalance (detector.decrypted announcement sharedSecret).1)
          (detector.knownOwnerNote owner sharedSecret
            (detector.decrypted announcement sharedSecret).1
            (detector.decrypted announcement sharedSecret).2
            announcement.ephemeralKey announcement.viewTag)
      else .notOurs := by
  simp only [judge, hpoint, hscan, hindex, hsecret, ne_eq, not_true_eq_false,
    if_false]
  rfl

/-- A recomputed note is what the allocation's own viewer decrypted, of the
expected token and with the announced id. -/
theorem judge_recomputed {announcement : Announcement Field} {viewTag : UInt8}
    {allocation : WatchedAllocation Id Addr Secret} {amount : HoprBalance}
    {note : Note}
    (hjudge : detector.judge announcement viewTag allocation =
      .recomputed amount note) :
    ∃ owner scanMatch rest sharedSecret wei,
      detector.bjjPoint allocation.address = .ok owner ∧
      detector.viewerScan allocation.scanSecret announcement.ephemeralKey
        viewTag = .ok (scanMatch :: rest) ∧
      detector.sharedSecretFromScanMatch scanMatch.spendingPubKey =
        .ok sharedSecret ∧
      detector.decrypted announcement sharedSecret =
        (wei, detector.expectedToken) ∧
      note = detector.knownOwnerNote owner sharedSecret wei
        detector.expectedToken announcement.ephemeralKey
        announcement.viewTag ∧
      detector.noteId note = announcement.noteId ∧
      amount = detector.toBalance wei := by
  cases hpoint : detector.bjjPoint allocation.address with
  | error reason => simp [judge, hpoint] at hjudge
  | ok owner =>
  cases hscan : detector.viewerScan allocation.scanSecret
      announcement.ephemeralKey viewTag with
  | error text => simp [judge, hpoint, hscan] at hjudge
  | ok found =>
  cases found with
  | nil => simp [judge, hpoint, hscan] at hjudge
  | cons scanMatch rest =>
  by_cases hindex : scanMatch.index = 0
  · cases hsecret : detector.sharedSecretFromScanMatch
        scanMatch.spendingPubKey with
    | error error => simp [judge, hpoint, hscan, hindex, hsecret] at hjudge
    | ok sharedSecret =>
        rw [judge_of_found hpoint hscan hindex hsecret] at hjudge
        split at hjudge
        · cases hjudge
        · rename_i htoken
          rw [not_not] at htoken
          rw [htoken] at hjudge
          split at hjudge
          · rename_i hmatch
            cases hjudge
            exact ⟨owner, scanMatch, rest, sharedSecret, _, rfl, rfl, hsecret,
              Prod.ext rfl htoken, rfl, hmatch, rfl⟩
          · cases hjudge
  · simp [judge, hpoint, hscan, hindex] at hjudge

theorem firstOwner_of_recomputed (hsound : detector.Sound registered)
    {candidate : CurvyPendingNote} {announcement : Announcement Field}
    {viewTag : UInt8} {allocation : WatchedAllocation Id Addr Secret}
    {watched : List (WatchedAllocation Id Addr Secret)}
    {amount : HoprBalance} {note : Note}
    (hparse : detector.parseCandidate candidate = .ok (announcement, viewTag))
    (hjudge : detector.judge announcement viewTag allocation =
      .recomputed amount note)
    (hamount : amount.isZero = false) (hwatched : allocation ∈ watched)
    (hregistered : ∀ other ∈ watched, other ∈ registered)
    (hallocation : allocation ∈ registered) :
    ∃ detected, detector.firstOwner announcement viewTag watched =
        .ok (some detected) ∧ detected.deposit.id = allocation.id := by
  induction watched with
  | nil => cases hwatched
  | cons other rest ih =>
      have hknown := hregistered other List.mem_cons_self
      unfold firstOwner
      cases hother : detector.judge announcement viewTag other with
      | notOurs =>
          refine ih ?_ fun next hnext =>
            hregistered next (List.mem_cons_of_mem _ hnext)
          obtain rfl | hrest := List.mem_cons.mp hwatched
          · rw [hjudge] at hother
            cases hother
          · exact hrest
      | invalid error =>
          exact absurd hother
            (hsound.scan _ _ _ _ hallocation _ hknown _ _ _ hparse hjudge)
      | recomputed amount' note' =>
          obtain ⟨hid, rfl⟩ := hsound.unique _ _ _ _ _ hallocation _ hknown
            _ _ _ _ hjudge hother rfl
          simp only [hamount, Bool.false_eq_true, if_false]
          exact ⟨_, rfl, hid.symm⟩

/-- Whatever else is watched, a watched owner's note is found. -/
theorem Owns.detected (hsound : detector.Sound registered)
    {candidate : CurvyPendingNote}
    {allocation : WatchedAllocation Id Addr Secret}
    {watched : List (WatchedAllocation Id Addr Secret)}
    (howns : detector.Owns allocation candidate)
    (hwatched : allocation ∈ watched)
    (hregistered : ∀ other ∈ watched, other ∈ registered) :
    ∃ detected, detector.detectOwnedNote candidate watched =
        .ok (some detected) ∧ detected.deposit.id = allocation.id := by
  obtain ⟨announcement, viewTag, amount, note, hparse, hjudge, hamount⟩ :=
    howns
  unfold detectOwnedNote
  simp only [hparse]
  exact firstOwner_of_recomputed hsound hparse hjudge hamount hwatched
    hregistered (hregistered _ hwatched)

/-- A detection, with the allocation it comes from. -/
theorem firstOwner_some {detected : DetectedCurvyNote Id Addr Note}
    {announcement : Announcement Field} {viewTag : UInt8}
    {watched : List (WatchedAllocation Id Addr Secret)}
    (hfirst : detector.firstOwner announcement viewTag watched =
      .ok (some detected)) :
    ∃ other ∈ watched, ∃ amount note,
      detector.judge announcement viewTag other = .recomputed amount note ∧
      amount.isZero = false ∧
      detected = ⟨⟨other.id, other.address, amount⟩, note⟩ := by
  induction watched with
  | nil => cases hfirst
  | cons other rest ih =>
      unfold firstOwner at hfirst
      cases hjudge : detector.judge announcement viewTag other with
      | notOurs =>
          simp only [hjudge] at hfirst
          obtain ⟨found, hmem, hrest⟩ := ih hfirst
          exact ⟨found, List.mem_cons_of_mem other hmem, hrest⟩
      | invalid error =>
          simp only [hjudge] at hfirst
          cases hfirst
      | recomputed amount note =>
          simp only [hjudge] at hfirst
          split at hfirst
          · cases hfirst
          · rename_i hpositive
            cases hfirst
            exact ⟨other, List.mem_cons_self, amount, note, hjudge,
              Bool.eq_false_of_not_eq_true hpositive, rfl⟩

/-- What a detection says about the note id. -/
theorem detectOwnedNote_some {candidate : CurvyPendingNote}
    {watched : List (WatchedAllocation Id Addr Secret)}
    {detected : DetectedCurvyNote Id Addr Note}
    (hdetect : detector.detectOwnedNote candidate watched =
      .ok (some detected)) :
    ∃ announcement viewTag, ∃ other ∈ watched, ∃ amount note,
      detector.parseCandidate candidate = .ok (announcement, viewTag) ∧
      detector.judge announcement viewTag other = .recomputed amount note ∧
      detected.deposit.id = other.id := by
  unfold detectOwnedNote at hdetect
  cases hparse : detector.parseCandidate candidate with
  | error error => simp [hparse] at hdetect
  | ok parsed =>
      obtain ⟨announcement, viewTag⟩ := parsed
      simp only [hparse] at hdetect
      obtain ⟨other, hmem, amount, note, hjudge, _, rfl⟩ :=
        firstOwner_some hdetect
      exact ⟨announcement, viewTag, other, hmem, amount, note, rfl, hjudge, rfl⟩

end CurvyNoteDetector

end HoprStrategy.Curvy
