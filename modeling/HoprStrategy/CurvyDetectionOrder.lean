import HoprStrategy.CurvyCatchUp
import HoprStrategy.CurvyStoreSteps

/-!
# Detection and the other allocations

The loop of the detection stops at the first allocation which recomputes the
note id, and at the first error of the scan.  Such an error is about the
announcement, so no allocation hides the note of another.
-/

namespace HoprStrategy.Curvy.CurvyNoteDetector

open Library

variable {Id Addr Secret Field Owner Note : Type} [DecidableEq Field]
  {detector : CurvyNoteDetector Addr Secret Field Owner Note}
  {announcement : Announcement Field} {viewTag : UInt8}
  {allocation : WatchedAllocation Id Addr Secret}
  {watched : List (WatchedAllocation Id Addr Secret)}
  {candidate : CurvyPendingNote}

/-- What the scan of a single announcement promises: it fails for every viewer
or for none, and a match is the announcement's and has a spending key. -/
structure ScanContract
    (detector : CurvyNoteDetector Addr Secret Field Owner Note) : Prop where
  error : ∀ secret other ephemeralKey viewTag text,
    detector.viewerScan secret ephemeralKey viewTag = .error text →
    detector.viewerScan other ephemeralKey viewTag = .error text
  found : ∀ secret ephemeralKey viewTag scanMatch rest,
    detector.viewerScan secret ephemeralKey viewTag =
      .ok (scanMatch :: rest) →
    scanMatch.index = 0 ∧ ∃ sharedSecret,
      detector.sharedSecretFromScanMatch scanMatch.spendingPubKey =
        .ok sharedSecret

def Verdict.isRecomputed : Verdict Note → Bool
  | .recomputed _ _ => true
  | _ => false

/-- The allocation recomputes the note id of the event. -/
def recomputesNote (detector : CurvyNoteDetector Addr Secret Field Owner Note)
    (candidate : CurvyPendingNote)
    (allocation : WatchedAllocation Id Addr Secret) : Bool :=
  match detector.parseCandidate candidate with
  | .error _ => false
  | .ok (announcement, viewTag) =>
      (detector.judge announcement viewTag allocation).isRecomputed

/-- The local owner is a point of the curve. -/
def ownerValid (detector : CurvyNoteDetector Addr Secret Field Owner Note)
    (allocation : WatchedAllocation Id Addr Secret) : Bool :=
  match detector.bjjPoint allocation.address with
  | .ok _ => true
  | .error _ => false

/-- No viewer's scan fails for the announcement. -/
def ScanAccepts (detector : CurvyNoteDetector Addr Secret Field Owner Note)
    (candidate : CurvyPendingNote) : Prop :=
  ∀ announcement viewTag,
    detector.parseCandidate candidate = .ok (announcement, viewTag) →
    ∀ secret text,
      detector.viewerScan secret announcement.ephemeralKey viewTag ≠
        .error text

def scanFailed (text : String) : InvalidCandidate :=
  ⟨s!"Curvy viewer scan failed: {text}"⟩

/-! ## What one allocation makes of an announcement -/

theorem judge_of_ownerInvalid (howner : detector.ownerValid allocation = false) :
    detector.judge announcement viewTag allocation = .notOurs := by
  unfold ownerValid at howner
  unfold judge
  split at howner
  · cases howner
  · rename_i error hpoint
    rw [hpoint]

theorem judge_of_refused {text : String}
    (hrefused : detector.viewerScan allocation.scanSecret
      announcement.ephemeralKey viewTag = .error text)
    (howner : detector.ownerValid allocation = true) :
    detector.judge announcement viewTag allocation =
      .invalid (scanFailed text) := by
  unfold ownerValid at howner
  unfold judge
  split at howner
  · rename_i owner hpoint
    rw [hpoint]
    simp only [hrefused]
    rfl
  · cases howner

/-- An allocation finds fault with an announcement only where the scan does. -/
theorem judge_ne_invalid (hcontract : detector.ScanContract)
    (haccepts : ∀ text, detector.viewerScan allocation.scanSecret
      announcement.ephemeralKey viewTag ≠ .error text)
    (error : InvalidCandidate) :
    detector.judge announcement viewTag allocation ≠ .invalid error := by
  unfold judge
  cases detector.bjjPoint allocation.address with
  | error reason => simp
  | ok owner =>
      cases hscan : detector.viewerScan allocation.scanSecret
          announcement.ephemeralKey viewTag with
      | error text => exact absurd hscan (haccepts text)
      | ok matches' =>
          cases matches' with
          | nil => simp
          | cons scanMatch rest =>
              obtain ⟨hindex, sharedSecret, hsecret⟩ :=
                hcontract.found _ _ _ _ _ hscan
              simp only [hindex, ne_eq, not_true_eq_false, if_false, hsecret]
              split_ifs <;> simp

/-! ## The loop -/

/-- Allocations which do not match are passed over. -/
theorem firstOwner_filter
    (hvalid : ∀ allocation ∈ watched, ∀ error,
      detector.judge announcement viewTag allocation ≠ .invalid error) :
    detector.firstOwner announcement viewTag watched =
      detector.firstOwner announcement viewTag
        (watched.filter fun allocation =>
          (detector.judge announcement viewTag allocation).isRecomputed) := by
  induction watched with
  | nil => rfl
  | cons allocation rest ih =>
      have hrest := ih fun other hother =>
        hvalid other (List.mem_cons_of_mem _ hother)
      rw [List.filter_cons]
      cases hjudge : detector.judge announcement viewTag allocation with
      | notOurs =>
          simp only [firstOwner, hjudge, Verdict.isRecomputed,
            Bool.false_eq_true, if_false]
          exact hrest
      | invalid error =>
          exact absurd hjudge (hvalid allocation List.mem_cons_self error)
      | recomputed amount note =>
          simp only [firstOwner, hjudge, Verdict.isRecomputed, if_true]

/-- A refused announcement fails at the first allocation with a valid owner. -/
theorem firstOwner_refused {text : String}
    (hrefused : ∀ secret, detector.viewerScan secret
      announcement.ephemeralKey viewTag = .error text) :
    detector.firstOwner announcement viewTag watched =
      if watched.any detector.ownerValid then .error (scanFailed text)
      else .ok none := by
  induction watched with
  | nil => rfl
  | cons allocation rest ih =>
      rw [List.any_cons]
      cases howner : detector.ownerValid allocation with
      | false =>
          simp only [firstOwner, judge_of_ownerInvalid howner,
            Bool.false_or]
          exact ih
      | true =>
          simp only [firstOwner, judge_of_refused (hrefused _) howner,
            Bool.true_or, if_true]

theorem detectOwnedNote_filter (hcontract : detector.ScanContract)
    (haccepts : detector.ScanAccepts candidate)
    (watched : List (WatchedAllocation Id Addr Secret)) :
    detector.detectOwnedNote candidate watched =
      detector.detectOwnedNote candidate
        (watched.filter (detector.recomputesNote candidate)) := by
  unfold detectOwnedNote
  cases hparse : detector.parseCandidate candidate with
  | error error => rfl
  | ok parsed =>
      obtain ⟨announcement, viewTag⟩ := parsed
      have hmatches : detector.recomputesNote candidate =
          fun allocation : WatchedAllocation Id Addr Secret =>
            (detector.judge announcement viewTag allocation).isRecomputed := by
        funext allocation
        simp only [recomputesNote, hparse]
      rw [hmatches]
      exact firstOwner_filter fun allocation _ =>
        judge_ne_invalid hcontract (haccepts _ _ hparse _)

theorem detectOwnedNote_refused (hcontract : detector.ScanContract)
    {secret : Secret} {text : String}
    (hparse : detector.parseCandidate candidate = .ok (announcement, viewTag))
    (hrefused : detector.viewerScan secret announcement.ephemeralKey viewTag =
      .error text) (watched : List (WatchedAllocation Id Addr Secret)) :
    detector.detectOwnedNote candidate watched =
      if watched.any detector.ownerValid then .error (scanFailed text)
      else .ok none := by
  unfold detectOwnedNote
  rw [hparse]
  exact firstOwner_refused fun other => hcontract.error _ _ _ _ _ hrefused

/-- A list of at most one match has one order only. -/
theorem eq_of_perm_of_sole {α : Type} {left right : List α}
    (hperm : left.Perm right) (hsole : right.length ≤ 1) : left = right := by
  cases right with
  | nil => exact hperm.eq_nil
  | cons first rest =>
      cases rest with
      | nil => exact List.perm_singleton.mp hperm
      | cons second rest => simp at hsole

/-! ## A detected note -/

/-- The allocation's own viewer decrypted the note, which is of the expected
token, worth something and has the published id. -/
def PaysTo (detector : CurvyNoteDetector Addr Secret Field Owner Note)
    (candidate : CurvyPendingNote)
    (allocation : WatchedAllocation Id Addr Secret)
    (detected : DetectedCurvyNote Id Addr Note) : Prop :=
  ∃ announcement viewTag owner scanMatch rest sharedSecret amount,
    detector.parseCandidate candidate = .ok (announcement, viewTag) ∧
    detector.bjjPoint allocation.address = .ok owner ∧
    detector.viewerScan allocation.scanSecret announcement.ephemeralKey
      viewTag = .ok (scanMatch :: rest) ∧
    detector.sharedSecretFromScanMatch scanMatch.spendingPubKey =
      .ok sharedSecret ∧
    detector.decrypted announcement sharedSecret =
      (amount, detector.expectedToken) ∧
    detected.note = detector.knownOwnerNote owner sharedSecret amount
      detector.expectedToken announcement.ephemeralKey announcement.viewTag ∧
    detector.parseNoteId candidate.noteId =
      .ok (detector.noteId detected.note) ∧
    detected.deposit =
      ⟨allocation.id, allocation.address, detector.toBalance amount⟩ ∧
    detected.deposit.amount.isZero = false

theorem detectOwnedNote_paysTo {detected : DetectedCurvyNote Id Addr Note}
    (hdetect : detector.detectOwnedNote candidate watched =
      .ok (some detected)) :
    ∃ allocation ∈ watched, detector.PaysTo candidate allocation detected := by
  unfold detectOwnedNote at hdetect
  cases hparse : detector.parseCandidate candidate with
  | error error =>
      rw [hparse] at hdetect
      cases hdetect
  | ok parsed =>
      obtain ⟨announcement, viewTag⟩ := parsed
      rw [hparse] at hdetect
      obtain ⟨allocation, hmem, amount, note, hjudge, hpositive, rfl⟩ :=
        firstOwner_some hdetect
      obtain ⟨owner, scanMatch, rest, sharedSecret, wei, hpoint, hscan,
        hsecret, hdecrypted, hnote, hid, rfl⟩ := judge_recomputed hjudge
      refine ⟨allocation, hmem, announcement, viewTag, owner, scanMatch, rest,
        sharedSecret, wei, hparse, hpoint, hscan, hsecret, hdecrypted, hnote,
        ?_, rfl, hpositive⟩
      rw [hid]
      exact parseCandidate_noteId hparse

/-- Two lists with the same match, both of which come to the scan or neither:
the result is the same. -/
theorem detectOwnedNote_congr (hcontract : detector.ScanContract)
    {others : List (WatchedAllocation Id Addr Secret)}
    (hsole : (watched.filter (detector.recomputesNote candidate)).length ≤ 1)
    (hmatches : (others.filter (detector.recomputesNote candidate)).Perm
      (watched.filter (detector.recomputesNote candidate)))
    (hscan : detector.ScanAccepts candidate ∨
      others.any detector.ownerValid = watched.any detector.ownerValid) :
    detector.detectOwnedNote candidate others =
      detector.detectOwnedNote candidate watched := by
  by_cases haccepts : detector.ScanAccepts candidate
  · rw [detectOwnedNote_filter hcontract haccepts others,
      detectOwnedNote_filter hcontract haccepts watched,
      eq_of_perm_of_sole hmatches hsole]
  · have howners := hscan.resolve_left haccepts
    unfold ScanAccepts at haccepts
    push Not at haccepts
    obtain ⟨announcement, viewTag, hparse, secret, text, hrefused⟩ := haccepts
    rw [detectOwnedNote_refused hcontract hparse hrefused others,
      detectOwnedNote_refused hcontract hparse hrefused watched, howners]

/-- The result does not depend on the order of the watched allocations, nor on
those which do not match: with the same match it is the same, whether the scan
passes the announcement or refuses it to every valid owner.  What is found pays
to a watched allocation. -/
theorem noteDetection_independent
    (detector : CurvyNoteDetector Addr Secret Field Owner Note)
    (hcontract : detector.ScanContract) (candidate : CurvyPendingNote)
    (watched : List (WatchedAllocation Id Addr Secret))
    (hsole : (watched.filter (detector.recomputesNote candidate)).length ≤ 1) :
    (∀ order : List (WatchedAllocation Id Addr Secret), order.Perm watched →
      detector.detectOwnedNote candidate order =
        detector.detectOwnedNote candidate watched) ∧
    (∀ others : List (WatchedAllocation Id Addr Secret),
      (others.filter (detector.recomputesNote candidate)).Perm
        (watched.filter (detector.recomputesNote candidate)) →
      (detector.ScanAccepts candidate ∨
        others.any detector.ownerValid = watched.any detector.ownerValid) →
      detector.detectOwnedNote candidate others =
        detector.detectOwnedNote candidate watched) ∧
    ∀ detected, detector.detectOwnedNote candidate watched =
        .ok (some detected) →
      ∃ allocation ∈ watched,
        detector.PaysTo candidate allocation detected := by
  refine ⟨?_, ?_, ?_⟩
  · intro order hperm
    exact detectOwnedNote_congr hcontract hsole (hperm.filter _)
      (Or.inr hperm.any_eq)
  · intro others hmatches hscan
    exact detectOwnedNote_congr hcontract hsole hmatches hscan
  · intro detected hdetect
    exact detectOwnedNote_paysTo hdetect

theorem plaintextDetector_scanContract :
    plaintextDetector.ScanContract where
  error := by
    intro secret other ephemeralKey viewTag text hrefused
    cases hrefused
  found := by
    intro secret ephemeralKey viewTag scanMatch rest hfound
    cases hfound
    exact ⟨rfl, 1, rfl⟩

/-- Another allocation, whose viewer recognises every announcement too. -/
def foreignAllocation : WatchedAllocation ℕ ℕ Unit := ⟨2, 9, ()⟩

/-- The note is found behind the foreign allocation, and as if there were
none. -/
theorem noteDetection_independent_foreign :
    plaintextDetector.detectOwnedNote soleNote
        [foreignAllocation, soleAllocation] =
      plaintextDetector.detectOwnedNote soleNote
        [soleAllocation, foreignAllocation] ∧
    plaintextDetector.detectOwnedNote soleNote [soleAllocation] =
      plaintextDetector.detectOwnedNote soleNote
        [soleAllocation, foreignAllocation] ∧
    plaintextDetector.detectOwnedNote soleNote
        [soleAllocation, foreignAllocation] =
      .ok (some ⟨⟨1, 5, .saturating 2⟩, (5, 2)⟩) := by
  have hindependent := noteDetection_independent plaintextDetector
    plaintextDetector_scanContract soleNote
    [soleAllocation, foreignAllocation] (by decide)
  exact ⟨hindependent.1 _ (List.Perm.swap ..),
    hindependent.2.1 [soleAllocation] (by decide) (Or.inr (by decide)), rfl⟩

end HoprStrategy.Curvy.CurvyNoteDetector
