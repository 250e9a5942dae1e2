import HoprStrategy.CurvyDurability
import HoprStrategy.CurvyState
import HoprStrategy.Library.Fallible
import HoprStrategy.Library.SubsetSum
import Mathlib.Data.List.Sort
import Mathlib.Tactic

/-!
# Notes of a withdrawal

A withdrawal makes no change, so a partial amount has to be an exact sum of
whole notes.  `exactNoteSubset` searches the values in descending order, note
by note with and without it, gives up a branch once the notes left cannot reach
the amount, and stops when its steps are used up.
-/

namespace HoprStrategy.Curvy

open Library

variable {Fr Id Addr : Type}

/-- `curvy_core::Note`, what the witness of a withdrawal is built from. -/
structure CurvyNote (Fr : Type) where
  ownerPub : Fr × Fr
  sharedSecret : Fr
  ephemeralKey : Fr × Fr
  viewTag : Fr
  amount : Fr
  token : Fr
  deriving DecidableEq

/-- The search budget of an exact whole-note withdrawal. -/
def maxNoteSelectionSteps : ℕ := 2 ^ 16

/-! ## The search -/

/-- Addition of two `u128` values. -/
def u128Add (left right : ℕ) : ℕ := (left + right) % 2 ^ 128

/-- An entry of `suffix`: the total of the values from there on. -/
def suffixTotal : List ℕ → ℕ
  | [] => 0
  | value :: rest => u128Add (suffixTotal rest) value

namespace exactNoteSubset

/-- The loop of `search` over the values left, which start at `index`, and the
steps it leaves. -/
def search (index : ℕ) (values : List ℕ) (remaining steps : ℕ) :
    Option (List ℕ) × ℕ :=
  if remaining = 0 then (some [], steps)
  else
    match values with
    | [] => (none, steps)
    | value :: rest =>
        if suffixTotal (value :: rest) < remaining ∨ steps = 0 then
          (none, steps)
        else if remaining < value then
          search (index + 1) rest remaining (steps - 1)
        else
          match search (index + 1) rest (remaining - value) (steps - 1) with
          | (some picked, left) => (some (index :: picked), left)
          | (none, left) => search (index + 1) rest remaining left

end exactNoteSubset

/-- Indices of values which sum up to the target, unless there are none or the
budget runs out. -/
def exactNoteSubset (values : List ℕ) (target budget : ℕ) :
    Option (List ℕ) :=
  (exactNoteSubset.search 0 values target budget).1

/-! ## The selection -/

def balanceU128 (balanceText : HoprBalance → String) (balance : HoprBalance) :
    Except SdkError ℕ :=
  if balance.wei < 2 ^ 128 then .ok balance.wei
  else .error (.invalidValue (balanceText balance ++ " does not fit u128"))

section

variable (codec : NoteCodec Fr)

/-- The witness note as the prover takes it. -/
def CurvyNote.toOwned (note : CurvyNote Fr) : OwnedNote Fr where
  ownerPub := note.ownerPub
  sharedSecret := note.sharedSecret
  ephemeralKey := note.ephemeralKey
  viewTag := codec.frToBiguint note.viewTag
  amount := note.amount
  token := note.token

def ownedNote (note : CommittedCurvyNote Id Addr (CurvyNote Fr)) :
    Except SdkError (OwnedNote Fr) :=
  if codec.frToBiguint note.note.viewTag < 2 ^ 8 then
    .ok (note.note.toOwned codec)
  else .error (.invalidValue "note view tag does not fit one byte")

def noteValue (note : OwnedNote Fr) : ℕ := codec.frToBiguint note.amount

def noteValueU128 (note : OwnedNote Fr) : Except SdkError ℕ :=
  if noteValue codec note < 2 ^ 128 then .ok (noteValue codec note)
  else .error (.invalidValue "note amount does not fit u128")

/-- `sort_by_key` with the amounts in reverse, which is stable. -/
def sortNotes (notes : List (OwnedNote Fr)) : List (OwnedNote Fr) :=
  notes.insertionSort fun left right =>
    noteValue codec right ≤ noteValue codec left

/-- The notes at the indices, each of which is handed out once. -/
def takeNotes {Note : Type} : List (Option Note) → List ℕ → List Note
  | _, [] => []
  | slots, index :: rest =>
      match slots[index]?.join with
      | some note => note :: takeNotes (slots.set index none) rest
      | none => takeNotes slots rest

/-- The total of the largest values until it reaches the target. -/
def greedyTotal (target : ℕ) : ℕ → List ℕ → ℕ
  | selected, [] => selected
  | selected, value :: rest =>
      if target ≤ selected then selected
      else greedyTotal target (u128Add selected value) rest

def selectNotes (balanceText : HoprBalance → String)
    (notes : List (CommittedCurvyNote Id Addr (CurvyNote Fr)))
    (amount : Option HoprBalance) : Except SdkError (List (OwnedNote Fr)) := do
  let owned ← notes.mapM (ownedNote codec)
  let nonzero := owned.filter fun note => noteValue codec note ≠ 0
  match amount with
  | none => return nonzero
  | some balance =>
      let target ← balanceU128 balanceText balance
      let sorted := sortNotes codec nonzero
      let values ← sorted.mapM (noteValueU128 codec)
      let available ← SdkM.checkedTotal "note total" 0 values
      if available < target then
        throw (.insufficientNotes target available)
      else
        match exactNoteSubset values target maxNoteSelectionSteps with
        | some indices => return takeNotes (sorted.map some) indices
        | none => throw (.inexactWithdrawal target (greedyTotal target 0 values))

end

/-! ## What a search finds -/

theorem suffixTotal_eq_sum {values : List ℕ} (hfits : values.sum < 2 ^ 128) :
    suffixTotal values = values.sum := by
  induction values with
  | nil => rfl
  | cons value rest ih =>
      rw [List.sum_cons] at hfits ⊢
      rw [suffixTotal, ih (by omega), u128Add, Nat.mod_eq_of_lt (by omega),
        Nat.add_comm]

namespace exactNoteSubset

variable {index remaining steps left : ℕ} {values indices : List ℕ}

/-- What a search returns are positions with the sum it was asked for. -/
theorem search_sound
    (hfound : (search index values remaining steps).1 = some indices) :
    PicksExactly index values remaining indices := by
  induction values generalizing index remaining steps indices with
  | nil =>
      rw [search] at hfound
      split at hfound
      · next hzero =>
          cases hfound
          rw [hzero]
          exact PicksExactly.zero index []
      · cases hfound
  | cons value rest ih =>
      rw [search] at hfound
      split at hfound
      · next hzero =>
          cases hfound
          rw [hzero]
          exact PicksExactly.zero index (value :: rest)
      · split at hfound
        · cases hfound
        · split at hfound
          · exact (ih hfound).skip value
          · next hfits =>
              split at hfound
              · next picked left hwith =>
                  cases hfound
                  have htaken := (ih (congrArg Prod.fst hwith)).take value
                  rwa [Nat.add_sub_cancel' (Nat.le_of_not_lt hfits)] at htaken
              · exact (ih hfound).skip value

/-- A search of `n` values which finds nothing takes fewer than `2 ^ n`
steps. -/
theorem steps_of_search_none
    (hnone : search index values remaining steps = (none, left)) :
    steps + 1 ≤ left + 2 ^ values.length := by
  induction values generalizing index remaining steps left with
  | nil =>
      rw [search] at hnone
      split at hnone
      · cases hnone
      · cases hnone
        exact Nat.le_refl _
  | cons value rest ih =>
      have hpositive : 0 < 2 ^ rest.length := Nat.two_pow_pos _
      rw [search] at hnone
      rw [List.length_cons, Nat.pow_succ]
      split at hnone
      · cases hnone
      · split at hnone
        · cases hnone
          omega
        · split at hnone
          · have hrest := ih hnone
            omega
          · split at hnone
            · cases hnone
            · next between hwith =>
                have hincluded := ih hwith
                have hexcluded := ih hnone
                omega

/-- With the steps for every branch, a search which finds nothing has ruled
out every subset. -/
theorem not_picksExactly_of_search_none (hfits : values.sum < 2 ^ 128)
    (hbudget : 2 ^ values.length ≤ steps + 1)
    (hnone : search index values remaining steps = (none, left)) :
    ¬ PicksExactly index values remaining indices := by
  intro hpicks
  induction values generalizing index remaining steps left indices with
  | nil =>
      rw [search, if_pos hpicks.target_eq_zero] at hnone
      cases hnone
  | cons value rest ih =>
      have hpositive : 0 < 2 ^ rest.length := Nat.two_pow_pos _
      have hreach := hpicks.le_sum
      have htotal := suffixTotal_eq_sum hfits
      rw [List.sum_cons] at hfits
      rw [List.length_cons, Nat.pow_succ] at hbudget
      rw [search] at hnone
      split at hnone
      · cases hnone
      · split at hnone
        · next hstop =>
            -- Neither bound stops the search: the subset is within reach of
            -- the suffix, and there is a step left.
            rw [htotal] at hstop
            omega
        · split at hnone
          · next htoolarge =>
              rcases hpicks.of_cons with ⟨later, -, hvalue, -⟩ | hlater
              · omega
              · exact ih (by omega) (by omega) hnone hlater
          · split at hnone
            · cases hnone
            · next between hwith =>
                have hsteps := steps_of_search_none hwith
                rcases hpicks.of_cons with ⟨later, -, -, hlater⟩ | hlater
                · exact ih (by omega) (by omega) hwith hlater
                · exact ih (by omega) (by omega) hnone hlater

end exactNoteSubset

theorem exactNoteSubset_isSome_iff {values : List ℕ} {target budget : ℕ}
    (hfits : values.sum < 2 ^ 128)
    (hbudget : 2 ^ values.length ≤ budget + 1) :
    (exactNoteSubset values target budget).isSome ↔
      ∃ indices, PicksExactly 0 values target indices := by
  rw [exactNoteSubset]
  constructor
  · intro hsome
    obtain ⟨indices, hindices⟩ := Option.isSome_iff_exists.mp hsome
    exact ⟨indices, exactNoteSubset.search_sound hindices⟩
  · rintro ⟨indices, hpicks⟩
    cases hsearch : exactNoteSubset.search 0 values target budget with
    | mk result left =>
        cases result with
        | none =>
            exact absurd hpicks
              (exactNoteSubset.not_picksExactly_of_search_none hfits hbudget
                hsearch)
        | some picked => rfl

/-- What `exactNoteSubset` promises for values whose total fits `u128`. -/
structure SearchExact (values : List ℕ) (target budget : ℕ) : Prop where
  sound : ∀ indices, exactNoteSubset values target budget = some indices →
    PicksExactly 0 values target indices
  complete : 2 ^ values.length ≤ budget + 1 →
    ((exactNoteSubset values target budget).isSome ↔
      ∃ indices, PicksExactly 0 values target indices)
  noOverflow : ∀ count,
    suffixTotal (values.drop count) = (values.drop count).sum

theorem sum_drop_le (values : List ℕ) (count : ℕ) :
    (values.drop count).sum ≤ values.sum := by
  have hsplit := congrArg List.sum (List.take_append_drop count values)
  rw [List.sum_append] at hsplit
  omega

theorem searchExact {values : List ℕ} (hfits : values.sum < 2 ^ 128)
    (target budget : ℕ) : SearchExact values target budget where
  sound := fun _ hfound => exactNoteSubset.search_sound hfound
  complete := exactNoteSubset_isSome_iff hfits
  noOverflow := fun count =>
    suffixTotal_eq_sum ((sum_drop_le values count).trans_lt hfits)

/-! ## What a selection returns -/

/-- Each slot is read before it is emptied, as the indices increase. -/
theorem takeNotes_eq_filterMap {Note : Type} {notes : List Note}
    {slots : List (Option Note)} {indices : List ℕ}
    (hincreasing : indices.Pairwise (· < ·))
    (hslots : ∀ index ∈ indices, slots[index]?.join = notes[index]?) :
    takeNotes slots indices = indices.filterMap (notes[·]?) := by
  induction indices generalizing slots with
  | nil => rfl
  | cons index rest ih =>
      rw [List.pairwise_cons] at hincreasing
      rw [takeNotes, hslots index (by simp)]
      have hrest : ∀ later ∈ rest, slots[later]?.join = notes[later]? :=
        fun later hlater => hslots later (by simp [hlater])
      cases hnote : notes[index]? with
      | none =>
          rw [List.filterMap_cons_none hnote]
          exact ih hincreasing.2 hrest
      | some note =>
          rw [List.filterMap_cons_some hnote]
          have hemptied : ∀ later ∈ rest,
              (slots.set index none)[later]?.join = notes[later]? := by
            intro later hlater
            have hne : index ≠ later := by
              have hbefore := hincreasing.1 later hlater
              omega
            rw [List.getElem?_set_ne hne]
            exact hrest later hlater
          exact congrArg (note :: ·) (ih hincreasing.2 hemptied)

theorem checkedTotal_eq_ok {what : String} {total available : ℕ}
    {amounts : List ℕ} (hstart : total < 2 ^ 128)
    (h : SdkM.checkedTotal what total amounts = .ok available) :
    available = total + amounts.sum ∧ available < 2 ^ 128 := by
  induction amounts generalizing total with
  | nil =>
      cases h
      exact ⟨rfl, hstart⟩
  | cons amount rest ih =>
      rw [SdkM.checkedTotal] at h
      split at h
      · next hfits =>
          obtain ⟨htotal, hbound⟩ := ih hfits h
          rw [List.sum_cons]
          omega
      · cases h

theorem checkedTotal_eq_error {what : String} {total : ℕ}
    {amounts : List ℕ} {error : SdkError}
    (h : SdkM.checkedTotal what total amounts = .error error) :
    error = .invalidValue (what ++ " overflows u128") ∧
      2 ^ 128 ≤ total + amounts.sum := by
  induction amounts generalizing total with
  | nil => cases h
  | cons amount rest ih =>
      rw [SdkM.checkedTotal] at h
      rw [List.sum_cons]
      split at h
      · obtain ⟨herror, hbound⟩ := ih h
        exact ⟨herror, by omega⟩
      · cases h
        exact ⟨rfl, by omega⟩

/-- The prefix total stays within the total, and reaches a target the total
reaches. -/
theorem greedyTotal_bounds (target selected : ℕ) (values : List ℕ)
    (hfits : selected + values.sum < 2 ^ 128)
    (hreach : target ≤ selected + values.sum) :
    target ≤ greedyTotal target selected values ∧
      greedyTotal target selected values ≤ selected + values.sum := by
  induction values generalizing selected with
  | nil =>
      rw [greedyTotal]
      exact ⟨hreach, Nat.le_add_right selected _⟩
  | cons value rest ih =>
      rw [List.sum_cons] at hfits hreach ⊢
      rw [greedyTotal]
      split
      · omega
      · have hadd : u128Add selected value = selected + value :=
          Nat.mod_eq_of_lt (by omega)
        rw [hadd]
        have hrest := ih (selected + value) (by omega) (by omega)
        omega

section

variable (codec : NoteCodec Fr)
  (notes : List (CommittedCurvyNote Id Addr (CurvyNote Fr)))

/-- The notes of the input which are worth something, in their order. -/
def nonzeroNotes : List (OwnedNote Fr) :=
  (notes.map fun note => note.note.toOwned codec).filter fun note =>
    noteValue codec note ≠ 0

def totalValue (selected : List (OwnedNote Fr)) : ℕ :=
  (selected.map (noteValue codec)).sum

/-- Whole notes of the input, each at most once, none of them worth nothing:
all of them, or with the requested sum. -/
structure ExactSelection (amount : Option HoprBalance)
    (selected : List (OwnedNote Fr)) : Prop where
  whole : selected.Subperm (nonzeroNotes codec notes)
  nonzero : ∀ note ∈ selected, noteValue codec note ≠ 0
  exact : ∀ balance, amount = some balance →
    totalValue codec selected = balance.wei
  all : amount = none → selected = nonzeroNotes codec notes

/-- The errors of a selection, each with what it says about the input.  A note
list the search can exhaust has no exact sum when none is found. -/
inductive SelectionRefused (balanceText : HoprBalance → String)
    (amount : Option HoprBalance) : SdkError → Prop where
  | viewTag
      (hwide : ∃ note ∈ notes, 2 ^ 8 ≤ codec.frToBiguint note.note.viewTag) :
      SelectionRefused balanceText amount
        (.invalidValue "note view tag does not fit one byte")
  | request (balance : HoprBalance) (hamount : amount = some balance)
      (hwide : 2 ^ 128 ≤ balance.wei) :
      SelectionRefused balanceText amount
        (.invalidValue (balanceText balance ++ " does not fit u128"))
  | noteAmount (balance : HoprBalance) (hamount : amount = some balance)
      (hwide : ∃ note ∈ nonzeroNotes codec notes,
        2 ^ 128 ≤ noteValue codec note) :
      SelectionRefused balanceText amount
        (.invalidValue "note amount does not fit u128")
  | noteTotal (balance : HoprBalance) (hamount : amount = some balance)
      (hwide : 2 ^ 128 ≤ totalValue codec (nonzeroNotes codec notes)) :
      SelectionRefused balanceText amount
        (.invalidValue "note total overflows u128")
  | insufficient (balance : HoprBalance) (hamount : amount = some balance)
      (hshort : totalValue codec (nonzeroNotes codec notes) < balance.wei) :
      SelectionRefused balanceText amount
        (.insufficientNotes balance.wei
          (totalValue codec (nonzeroNotes codec notes)))
  | inexact (balance : HoprBalance) (selected : ℕ)
      (hamount : amount = some balance)
      (henough : balance.wei ≤ selected)
      (hstored : selected ≤ totalValue codec (nonzeroNotes codec notes))
      (hfits : totalValue codec (nonzeroNotes codec notes) < 2 ^ 128)
      (hnone : 2 ^ (nonzeroNotes codec notes).length ≤
          maxNoteSelectionSteps + 1 →
        ∀ chosen : List (OwnedNote Fr),
          chosen.Subperm (nonzeroNotes codec notes) →
          totalValue codec chosen ≠ balance.wei) :
      SelectionRefused balanceText amount
        (.inexactWithdrawal balance.wei selected)

/-- An exact selection, or the error which matches the input. -/
def SelectsExactly (balanceText : HoprBalance → String)
    (amount : Option HoprBalance) :
    Except SdkError (List (OwnedNote Fr)) → Prop
  | .ok selected => ExactSelection codec notes amount selected
  | .error error => SelectionRefused codec notes balanceText amount error

variable {codec notes}

/-! ## The stages of a selection -/

theorem ownedNote_ok {note : CommittedCurvyNote Id Addr (CurvyNote Fr)}
    {owned : OwnedNote Fr} (h : ownedNote codec note = .ok owned) :
    owned = note.note.toOwned codec := by
  rw [ownedNote] at h
  split at h
  · cases h
    rfl
  · cases h

theorem ownedNote_error {note : CommittedCurvyNote Id Addr (CurvyNote Fr)}
    {error : SdkError} (h : ownedNote codec note = .error error) :
    error = .invalidValue "note view tag does not fit one byte" ∧
      2 ^ 8 ≤ codec.frToBiguint note.note.viewTag := by
  rw [ownedNote] at h
  split at h
  · cases h
  · next hwide =>
      cases h
      exact ⟨rfl, Nat.le_of_not_lt hwide⟩

theorem noteValueU128_ok {note : OwnedNote Fr} {value : ℕ}
    (h : noteValueU128 codec note = .ok value) :
    value = noteValue codec note := by
  rw [noteValueU128] at h
  split at h
  · cases h
    rfl
  · cases h

theorem noteValueU128_error {note : OwnedNote Fr} {error : SdkError}
    (h : noteValueU128 codec note = .error error) :
    error = .invalidValue "note amount does not fit u128" ∧
      2 ^ 128 ≤ noteValue codec note := by
  rw [noteValueU128] at h
  split at h
  · cases h
  · next hwide =>
      cases h
      exact ⟨rfl, Nat.le_of_not_lt hwide⟩

theorem sortNotes_perm (codec : NoteCodec Fr) (list : List (OwnedNote Fr)) :
    (sortNotes codec list).Perm list :=
  List.perm_insertionSort _ list

theorem totalValue_sortNotes (codec : NoteCodec Fr)
    (list : List (OwnedNote Fr)) :
    totalValue codec (sortNotes codec list) = totalValue codec list :=
  ((sortNotes_perm codec list).map _).sum_eq

theorem noteValue_ne_zero_of_mem {note : OwnedNote Fr}
    (hmem : note ∈ nonzeroNotes codec notes) : noteValue codec note ≠ 0 := by
  simpa using (List.mem_filter.mp hmem).2

/-- Indices of an exact subset of the sorted notes hand out an exact
selection. -/
theorem exactSelection_of_picksExactly {balance : HoprBalance}
    {indices : List ℕ}
    (hpicks : PicksExactly 0
      ((sortNotes codec (nonzeroNotes codec notes)).map (noteValue codec))
      balance.wei indices) :
    ExactSelection codec notes (some balance)
      (takeNotes ((sortNotes codec (nonzeroNotes codec notes)).map some)
        indices) := by
  have hslots : ∀ index ∈ indices,
      ((sortNotes codec (nonzeroNotes codec notes)).map some)[index]?.join =
        (sortNotes codec (nonzeroNotes codec notes))[index]? := by
    intro index _
    rw [List.getElem?_map]
    cases (sortNotes codec (nonzeroNotes codec notes))[index]? <;> rfl
  rw [takeNotes_eq_filterMap hpicks.increasing hslots]
  obtain ⟨hsublist, hsum⟩ := hpicks.sublist_and_sum
  have hwhole := hsublist.subperm.trans (sortNotes_perm codec _).subperm
  refine ⟨hwhole, ?_, ?_, fun hall => (by cases hall)⟩
  · intro note hnote
    exact noteValue_ne_zero_of_mem (hwhole.subset hnote)
  · intro requested hrequested
    cases hrequested
    exact hsum

/-- A search with enough steps which finds nothing leaves no exact sum. -/
theorem totalValue_ne_of_exactNoteSubset_eq_none {target : ℕ}
    (hfits : totalValue codec (nonzeroNotes codec notes) < 2 ^ 128)
    (hnone : exactNoteSubset
      ((sortNotes codec (nonzeroNotes codec notes)).map (noteValue codec))
      target maxNoteSelectionSteps = none)
    (hlength : 2 ^ (nonzeroNotes codec notes).length ≤
      maxNoteSelectionSteps + 1) (chosen : List (OwnedNote Fr))
    (hchosen : chosen.Subperm (nonzeroNotes codec notes)) :
    totalValue codec chosen ≠ target := by
  intro htotal
  obtain ⟨sublist, hperm, hsublist⟩ :=
    hchosen.trans (sortNotes_perm codec _).symm.subperm
  obtain ⟨indices, hpicks⟩ :=
    PicksExactly.exists_of_sublist (noteValue codec) hsublist 0
  have hsum : (sublist.map (noteValue codec)).sum = target := by
    rw [← htotal]
    exact (hperm.map _).sum_eq
  rw [hsum] at hpicks
  have hsorted : ((sortNotes codec (nonzeroNotes codec notes)).map
      (noteValue codec)).sum < 2 ^ 128 := by
    have heq := totalValue_sortNotes codec (nonzeroNotes codec notes)
    rw [totalValue] at heq
    rwa [heq]
  have hcount : 2 ^ ((sortNotes codec (nonzeroNotes codec notes)).map
      (noteValue codec)).length ≤ maxNoteSelectionSteps + 1 := by
    rw [List.length_map, (sortNotes_perm codec _).length_eq]
    exact hlength
  have hsome := (exactNoteSubset_isSome_iff hsorted hcount).mpr
    ⟨indices, hpicks⟩
  rw [hnone] at hsome
  cases hsome

/-- The search over the sorted notes, once their values are known to fit. -/
theorem searched_selectsExactly {balanceText : HoprBalance → String}
    {balance : HoprBalance}
    (hfits : totalValue codec (nonzeroNotes codec notes) < 2 ^ 128)
    (henough : balance.wei ≤ totalValue codec (nonzeroNotes codec notes)) :
    SelectsExactly codec notes balanceText (some balance)
      (match exactNoteSubset
          ((sortNotes codec (nonzeroNotes codec notes)).map (noteValue codec))
          balance.wei maxNoteSelectionSteps with
        | some indices =>
            .ok (takeNotes
              ((sortNotes codec (nonzeroNotes codec notes)).map some) indices)
        | none =>
            .error (.inexactWithdrawal balance.wei (greedyTotal balance.wei 0
              ((sortNotes codec (nonzeroNotes codec notes)).map
                (noteValue codec))))) := by
  have hsorted : ((sortNotes codec (nonzeroNotes codec notes)).map
      (noteValue codec)).sum = totalValue codec (nonzeroNotes codec notes) :=
    totalValue_sortNotes codec _
  cases hsearch : exactNoteSubset
      ((sortNotes codec (nonzeroNotes codec notes)).map (noteValue codec))
      balance.wei maxNoteSelectionSteps with
  | some indices =>
      exact exactSelection_of_picksExactly
        (exactNoteSubset.search_sound hsearch)
  | none =>
      obtain ⟨hreached, hwithin⟩ := greedyTotal_bounds
        balance.wei 0 ((sortNotes codec (nonzeroNotes codec notes)).map
          (noteValue codec)) (by omega) (by omega)
      exact SelectionRefused.inexact balance _ rfl hreached (by omega) hfits
        (totalValue_ne_of_exactNoteSubset_eq_none hfits hsearch)

theorem selectNotes_selectsExactly (balanceText : HoprBalance → String)
    (amount : Option HoprBalance) :
    SelectsExactly codec notes balanceText amount
      (selectNotes codec balanceText notes amount) := by
  rw [selectNotes]
  cases howned : notes.mapM (ownedNote codec) with
  | error error =>
      obtain ⟨note, hnote, herror⟩ := exists_of_mapM_eq_error howned
      obtain ⟨rfl, hwide⟩ := ownedNote_error herror
      exact SelectionRefused.viewTag ⟨note, hnote, hwide⟩
  | ok owned =>
      have hnonzero : (owned.filter fun note => noteValue codec note ≠ 0) =
          nonzeroNotes codec notes := by
        rw [eq_map_of_mapM_eq_ok (fun _ _ => ownedNote_ok) howned, nonzeroNotes]
      simp only [bind, Except.bind, hnonzero]
      cases amount with
      | none =>
          refine ⟨List.Subperm.refl _, fun note hnote => ?_, ?_, fun _ => rfl⟩
          · exact noteValue_ne_zero_of_mem hnote
          · intro balance hbalance
            cases hbalance
      | some balance =>
          by_cases hbalance : balance.wei < 2 ^ 128
          · simp only [balanceU128, if_pos hbalance]
            cases hvalues : (sortNotes codec (nonzeroNotes codec notes)).mapM
                (noteValueU128 codec) with
            | error error =>
                obtain ⟨note, hnote, herror⟩ :=
                  exists_of_mapM_eq_error hvalues
                obtain ⟨rfl, hwide⟩ := noteValueU128_error herror
                exact SelectionRefused.noteAmount balance rfl
                  ⟨note, (sortNotes_perm codec _).mem_iff.mp hnote, hwide⟩
            | ok values =>
                have hmap := eq_map_of_mapM_eq_ok
                  (fun _ _ => noteValueU128_ok) hvalues
                have hsum : values.sum =
                    totalValue codec (nonzeroNotes codec notes) := by
                  rw [hmap]
                  exact totalValue_sortNotes codec _
                cases htotal : SdkM.checkedTotal "note total" 0 values with
                | error error =>
                    obtain ⟨rfl, hwide⟩ := checkedTotal_eq_error htotal
                    rw [Nat.zero_add, hsum] at hwide
                    simp only [htotal]
                    exact SelectionRefused.noteTotal balance rfl hwide
                | ok available =>
                    obtain ⟨havailable, hfits⟩ :=
                      checkedTotal_eq_ok (by norm_num) htotal
                    rw [Nat.zero_add, hsum] at havailable
                    subst havailable
                    by_cases hshort : totalValue codec
                        (nonzeroNotes codec notes) < balance.wei
                    · simp only [htotal, if_pos hshort]
                      exact SelectionRefused.insufficient balance rfl hshort
                    · simp only [htotal, if_neg hshort]
                      rw [hmap]
                      exact searched_selectsExactly hfits
                        (Nat.le_of_not_lt hshort)
          · simp only [balanceU128, if_neg hbalance]
            exact SelectionRefused.request balance rfl
              (Nat.le_of_not_lt hbalance)

end

/-- Note selection is exact: a search returns strictly increasing positions
whose values sum up to the target, and with a step for every branch it finds
them whenever there are any; a selection is made of whole, distinct notes which
are worth exactly the amount, or of all of them, or it fails with the error its
input calls for. -/
theorem noteSelection_exact (codec : NoteCodec Fr)
    (balanceText : HoprBalance → String)
    (notes : List (CommittedCurvyNote Id Addr (CurvyNote Fr)))
    (amount : Option HoprBalance) (values : List ℕ)
    (hfits : values.sum < 2 ^ 128) (target budget : ℕ) :
    SearchExact values target budget ∧
      SelectsExactly codec notes balanceText amount
        (selectNotes codec balanceText notes amount) :=
  ⟨searchExact hfits target budget,
    selectNotes_selectsExactly balanceText amount⟩

/-- A stored note of one digit. -/
def committedDigit (viewTag amount : Fin 10) :
    CommittedCurvyNote ℕ ℕ (CurvyNote (Fin 10)) where
  deposit := ⟨0, 0, HoprBalance.saturating amount⟩
  note := ⟨(digit 0, digit 0), viewTag, (digit 0, digit 0), viewTag, amount,
    digit 0⟩
  leafIndex := 0

def threeDigits : List (CommittedCurvyNote ℕ ℕ (CurvyNote (Fin 10))) :=
  [committedDigit (digit 1) (digit 7), committedDigit (digit 2) (digit 0),
    committedDigit (digit 3) (digit 5)]

/-- Of notes worth 7, 0 and 5, the withdrawal of 5 spends the last one. -/
theorem noteSelection_exact_lastNote :
    (SearchExact [7, 5] 5 3 ∧
      SelectsExactly digitCodec threeDigits (fun _ => "5")
        (some (.saturating 5))
        (selectNotes digitCodec (fun _ => "5") threeDigits
          (some (.saturating 5)))) ∧
      selectNotes digitCodec (fun _ => "5") threeDigits
          (some (.saturating 5)) =
        .ok [(committedDigit (digit 3) (digit 5)).note.toOwned digitCodec] :=
  ⟨noteSelection_exact digitCodec (fun _ => "5") threeDigits
      (some (.saturating 5)) [7, 5] (by norm_num) 5 3, by rfl⟩

end HoprStrategy.Curvy
