import HoprStrategy.CurvyDetection
import HoprStrategy.Library.CursorPages
import HoprStrategy.Library.EffectProgram

/-!
# Reads of Curvy's index

The indexer serves its collections by the page and is not trusted.  Its replies
are a sequence, one for each request of a read; a request which fails and a
reply of an unexpected shape are errors.
-/

namespace HoprStrategy.Curvy.Indexer

open Library

structure SyncMeta where
  checkpoint : String
  notesRoot : String
  noteCount : ℕ

structure Page (Row : Type) where
  checkpoint : String
  nextIndex : ℕ
  total : ℕ
  items : List Row

structure CommittedRow where
  index : ℕ
  noteId : String
  deriving DecidableEq

structure NotesTreeSnapshot where
  checkpoint : String
  notesRoot : String
  leaves : List String
  deriving DecidableEq

inductive ChainError where
  | transport (text : String)
  | decode (text : String)
  deriving DecidableEq

abbrev PageReplies (Row : Type) : Type := ℕ → Except String (Page Row)

/-! ## Quantities -/

def isAsciiHexdigit (digit : Char) : Bool :=
  digit.isDigit || (97 ≤ digit.toNat && digit.toNat ≤ 102) ||
    (65 ≤ digit.toNat && digit.toNat ≤ 70)

def hexDigitValue (digit : Char) : ℕ :=
  if digit.isDigit then digit.toNat - 48
  else if 97 ≤ digit.toNat then digit.toNat - 87
  else digit.toNat - 55

/-- A 0x-hex quantity as a decimal string; decimal input passes through. -/
def hexToDec (value : String) : Except String String :=
  match stripHexPrefix value.toList with
  | none =>
      if ! value.isEmpty && value.toList.all Char.isDigit then .ok value
      else
        .error ("expected a 0x-hex or decimal quantity, got " ++ value.quote)
  | some digits =>
      if digits.isEmpty || 64 < digits.length ||
          ! digits.all isAsciiHexdigit then
        .error ("expected at most 32 hex bytes, got " ++ value.quote)
      else
        .ok (toString (digits.foldl
          (fun quantity digit => 16 * quantity + hexDigitValue digit) 0))

/-! ## The reads -/

variable {Row : Type}

def Page.stalls (page : Page Row) (fromIndex : ℕ) : Bool :=
  page.items.isEmpty || page.nextIndex ≤ fromIndex

theorem Page.advances {page : Page Row} {fromIndex : ℕ}
    (hstalls : page.stalls fromIndex = false) :
    0 < page.items.length ∧ fromIndex < page.nextIndex := by
  simp only [stalls, Bool.or_eq_false_iff, List.isEmpty_eq_false_iff,
    decide_eq_false_iff_not, Nat.not_le] at hstalls
  exact ⟨List.length_pos_of_ne_nil hstalls.1, hstalls.2⟩

/-- The loop of a read, from the given request on.  `changed` and `stopped` are
the errors of the collection at hand. -/
def pagesFrom (changed : String) (stopped : ℕ → String) (checkpoint : String)
    (total : ℕ) (replies : PageReplies Row) (request fromIndex : ℕ)
    (items : List Row) : Except String (List Row) :=
  if fromIndex < total then
    match replies request with
    | .error error => .error error
    | .ok page =>
        if page.checkpoint ≠ checkpoint then .error changed
        else if _hstalls : page.stalls fromIndex = true then
          .error (stopped fromIndex)
        else
          pagesFrom changed stopped checkpoint total replies (request + 1)
            page.nextIndex (items ++ page.items)
  else .ok items
termination_by total - fromIndex
decreasing_by
  have hadvances := Page.advances (Bool.eq_false_of_not_eq_true _hstalls)
  omega

/-- Every item of a positional collection at one checkpoint.  The vector is
reserved first, for at most `capacity` items. -/
def all (capacity : ℕ) (path checkpoint : String) (total : ℕ)
    (replies : PageReplies Row) : Outcome String (List Row) :=
  if capacity < total then .crashed
  else
    match pagesFrom s!"Curvy indexer {path} changed checkpoint mid-read"
        (fun fromIndex =>
          s!"Curvy indexer {path} stopped advancing at {fromIndex} of {total}")
        checkpoint total replies 0 0 [] with
    | .ok rows => .returned rows
    | .error error => .failed error

def pendingStopped : String :=
  "Curvy pending snapshot changed checkpoint or stopped advancing"

/-- All notes still pending.  The first page pins the checkpoint and announces
how many there are. -/
def pendingAll (replies : PageReplies Row) : Except String (List Row) :=
  match replies 0 with
  | .error error => .error error
  | .ok first =>
      if first.total ≤ first.nextIndex then .ok first.items
      else
        pagesFrom pendingStopped (fun _ => pendingStopped) first.checkpoint
          first.total replies 1 first.nextIndex first.items

def leavesFrom (expected : ℕ) :
    List CommittedRow → Except ChainError (List String)
  | [] => .ok []
  | row :: rest =>
      if row.index ≠ expected then
        .error (.decode ("Curvy indexer notes are not dense: leaf " ++
          toString expected ++ " is at index " ++ toString row.index))
      else
        match hexToDec row.noteId with
        | .error error => .error (.transport error)
        | .ok leaf => (leavesFrom (expected + 1) rest).map (leaf :: ·)

def notesTreeSnapshot (capacity : ℕ) (synced : Except String SyncMeta)
    (replies : PageReplies CommittedRow) :
    Outcome ChainError (Option NotesTreeSnapshot) :=
  match synced with
  | .error error => .failed (.transport error)
  | .ok syncMeta =>
      match all capacity "/sync/notes" syncMeta.checkpoint syncMeta.noteCount
          replies with
      | .crashed => .crashed
      | .failed error => .failed (.transport error)
      | .returned rows =>
          match leavesFrom 0 rows with
          | .error error => .failed error
          | .ok leaves =>
              .returned (some ⟨syncMeta.checkpoint, syncMeta.notesRoot, leaves⟩)

/-! ## What a read has seen -/

/-- A page with the index which it was asked for at. -/
structure ServedPage (Row : Type) where
  fromIndex : ℕ
  page : Page Row

def ServedPage.span (served : ServedPage Row) : PageSpan :=
  ⟨served.fromIndex, served.page.nextIndex, served.page.items.length⟩

def servedRows (served : List (ServedPage Row)) : List Row :=
  served.flatMap (·.page.items)

/-- The pages which the loop accepts, from the given request up to the total. -/
inductive PagesRead (checkpoint : String) (total : ℕ) (replies : PageReplies Row) :
    ℕ → ℕ → List (ServedPage Row) → Prop
  | done {request fromIndex : ℕ} (hend : total ≤ fromIndex) :
      PagesRead checkpoint total replies request fromIndex []
  | page {request fromIndex : ℕ} {page : Page Row}
      {rest : List (ServedPage Row)} (hmore : fromIndex < total)
      (hreply : replies request = .ok page)
      (hcheckpoint : page.checkpoint = checkpoint)
      (hstalls : page.stalls fromIndex = false)
      (hrest : PagesRead checkpoint total replies (request + 1) page.nextIndex
        rest) :
      PagesRead checkpoint total replies request fromIndex
        (⟨fromIndex, page⟩ :: rest)

variable {checkpoint changed path : String} {stopped : ℕ → String}
  {capacity total request fromIndex : ℕ} {replies other : PageReplies Row}
  {items rows : List Row} {served : List (ServedPage Row)}

theorem length_servedRows (served : List (ServedPage Row)) :
    (servedRows served).length =
      (pageIndices (served.map ServedPage.span)).length := by
  rw [length_pageIndices, servedRows, List.length_flatMap, List.map_map]
  rfl

theorem PagesRead.pagesTo
    (hreads : PagesRead checkpoint total replies request fromIndex served) :
    PagesTo total fromIndex (served.map ServedPage.span) := by
  induction hreads with
  | done hend => exact .done hend
  | page hmore hreply hcheckpoint hstalls hrest ih =>
      have hadvances := Page.advances hstalls
      exact .page hmore hadvances.1 hadvances.2 ih

/-- The loop succeeds with the items of the pages which it accepts. -/
theorem pagesFrom_eq_ok :
    pagesFrom changed stopped checkpoint total replies request fromIndex
        items = .ok rows ↔
      ∃ served, PagesRead checkpoint total replies request fromIndex served ∧
        rows = items ++ servedRows served := by
  fun_induction pagesFrom changed stopped checkpoint total replies request
    fromIndex items with
  | case1 request fromIndex items hmore error hreply =>
      constructor
      · intro hok
        cases hok
      · intro hread
        obtain ⟨served, hread, _⟩ := hread
        cases hread with
        | done hend => omega
        | page _ hreply' _ _ _ =>
            rw [hreply] at hreply'
            cases hreply'
  | case2 request fromIndex items hmore page hreply hchanged =>
      constructor
      · intro hok
        cases hok
      · intro hread
        obtain ⟨served, hread, _⟩ := hread
        cases hread with
        | done hend => omega
        | page _ hreply' hcheckpoint _ _ =>
            rw [hreply, Except.ok.injEq] at hreply'
            subst hreply'
            exact absurd hcheckpoint hchanged
  | case3 request fromIndex items hmore page hreply _ hstalls =>
      constructor
      · intro hok
        cases hok
      · intro hread
        obtain ⟨served, hread, _⟩ := hread
        cases hread with
        | done hend => omega
        | page _ hreply' _ hstalls' _ =>
            rw [hreply, Except.ok.injEq] at hreply'
            subst hreply'
            rw [hstalls] at hstalls'
            cases hstalls'
  | case4 request fromIndex items hmore page hreply hcheckpoint hstalls ih =>
      rw [ih]
      constructor
      · intro hread
        obtain ⟨served, hread, hrows⟩ := hread
        refine ⟨⟨fromIndex, page⟩ :: served, ?_, ?_⟩
        · exact .page hmore hreply (not_not.mp hcheckpoint)
            (Bool.eq_false_of_not_eq_true hstalls) hread
        · rw [hrows, List.append_assoc]
          rfl
      · intro hread
        obtain ⟨served, hread, hrows⟩ := hread
        cases hread with
        | done hend => omega
        | page _ hreply' _ _ hrest =>
            rw [hreply, Except.ok.injEq] at hreply'
            subst hreply'
            refine ⟨_, hrest, ?_⟩
            rw [hrows, List.append_assoc]
            rfl
  | case5 request fromIndex items hend =>
      constructor
      · intro hok
        cases hok
        exact ⟨[], .done (Nat.le_of_not_lt hend), by simp [servedRows]⟩
      · intro hread
        obtain ⟨served, hread, hrows⟩ := hread
        cases hread with
        | done => rw [hrows, servedRows, List.flatMap_nil, List.append_nil]
        | page hmore => exact absurd hmore hend

/-- A loop asks no more often than indices are left. -/
theorem pagesFrom_congr
    (hsame : ∀ n, request ≤ n → n < request + (total - fromIndex) →
      replies n = other n) :
    pagesFrom changed stopped checkpoint total replies request fromIndex
        items =
      pagesFrom changed stopped checkpoint total other request fromIndex
        items := by
  fun_induction pagesFrom changed stopped checkpoint total replies request
    fromIndex items with
  | case1 request fromIndex items hmore error hreply =>
      have hother := hsame request le_rfl (by omega)
      rw [hreply] at hother
      rw [pagesFrom, if_pos hmore, ← hother]
  | case2 request fromIndex items hmore page hreply hchanged =>
      have hother := hsame request le_rfl (by omega)
      rw [hreply] at hother
      rw [pagesFrom, if_pos hmore, ← hother]
      dsimp only
      rw [if_pos hchanged]
  | case3 request fromIndex items hmore page hreply hcheckpoint hstalls =>
      have hother := hsame request le_rfl (by omega)
      rw [hreply] at hother
      rw [pagesFrom, if_pos hmore, ← hother]
      dsimp only
      rw [if_neg hcheckpoint, dif_pos hstalls]
  | case4 request fromIndex items hmore page hreply hcheckpoint hstalls ih =>
      have hother := hsame request le_rfl (by omega)
      rw [hreply] at hother
      have hadvances := Page.advances (Bool.eq_false_of_not_eq_true hstalls)
      have hrest := ih fun n hle hlt => hsame n (by omega) (by omega)
      rw [hrest]
      conv_rhs => rw [pagesFrom, if_pos hmore, ← hother]
      dsimp only
      rw [if_neg hcheckpoint, dif_neg hstalls]
  | case5 request fromIndex items hend =>
      rw [pagesFrom, if_neg hend]

/-! ## Complete reads -/

/-- The announced number of items, each index of the collection once. -/
structure CompleteRead (total : ℕ) (served : List (ServedPage Row))
    (rows : List Row) : Prop where
  items : rows = servedRows served
  count : rows.length = total
  indices : pageIndices (served.map ServedPage.span) = List.range total

/-- The items of every page reach exactly to its next index, or to the total. -/
def PagesFill (total : ℕ) (served : List (ServedPage Row)) : Prop :=
  ∀ page ∈ served, page.span.Fills total

theorem completeRead_iff
    (hindices : pageIndices (served.map ServedPage.span) = List.range total ↔
      PagesFill total served) :
    CompleteRead total served (servedRows served) ↔
      PagesFill total served := by
  rw [← hindices]
  constructor
  · intro hcomplete
    exact hcomplete.indices
  · intro hrange
    refine ⟨rfl, ?_, hrange⟩
    rw [length_servedRows, hrange, List.length_range]

theorem forall_span_iff : (∀ span ∈ served.map ServedPage.span,
    span.Fills total) ↔ PagesFill total served := by
  simp [PagesFill]

/-- An error, or a complete read of all pages. -/
def AllExact (capacity : ℕ) (path checkpoint : String) (total : ℕ)
    (replies : PageReplies Row) : Prop :=
  (∃ error, all capacity path checkpoint total replies = .failed error) ∨
    ∃ rows served,
      all capacity path checkpoint total replies = .returned rows ∧
        PagesRead checkpoint total replies 0 0 served ∧
        CompleteRead total served rows

/-- How a read of a collection ends. -/
theorem all_cases (path checkpoint : String) (replies : PageReplies Row)
    (hcapacity : total ≤ capacity) :
    (∃ error, all capacity path checkpoint total replies = .failed error ∧
        ∀ served, ¬ PagesRead checkpoint total replies 0 0 served) ∨
      ∃ served, PagesRead checkpoint total replies 0 0 served ∧
        all capacity path checkpoint total replies =
          .returned (servedRows served) := by
  unfold all
  rw [if_neg (by omega)]
  split
  · rename_i rows hrows
    obtain ⟨served, hreads, hserved⟩ := pagesFrom_eq_ok.mp hrows
    rw [hserved]
    exact Or.inr ⟨served, hreads, rfl⟩
  · rename_i error herror
    refine Or.inl ⟨error, rfl, ?_⟩
    intro served hreads
    rw [pagesFrom_eq_ok.mpr ⟨served, hreads, rfl⟩] at herror
    cases herror

theorem PagesRead.unique {served' : List (ServedPage Row)}
    (hreads : PagesRead checkpoint total replies request fromIndex served)
    (hreads' : PagesRead checkpoint total replies request fromIndex served') :
    served = served' := by
  induction hreads generalizing served' with
  | done hend =>
      cases hreads' with
      | done => rfl
      | page hmore => omega
  | page hmore hreply hcheckpoint hstalls hrest ih =>
      cases hreads' with
      | done hend => omega
      | page _ hreply' _ _ hrest' =>
          rw [hreply, Except.ok.injEq] at hreply'
          subst hreply'
          rw [ih hrest']

theorem PagesRead.all_eq (path : String) (hcapacity : total ≤ capacity)
    (hreads : PagesRead checkpoint total replies 0 0 served) :
    all capacity path checkpoint total replies =
      .returned (servedRows served) := by
  rcases all_cases path checkpoint replies hcapacity with
    ⟨error, _, hnone⟩ | ⟨other, hother, hreturned⟩
  · exact absurd hreads (hnone served)
  · rw [hreads.unique hother]
    exact hreturned

theorem PagesRead.complete_iff
    (hreads : PagesRead checkpoint total replies 0 0 served) :
    CompleteRead total served (servedRows served) ↔
      PagesFill total served := by
  refine completeRead_iff ?_
  rw [List.range_eq_range', ← forall_span_iff]
  exact hreads.pagesTo.complete_iff

theorem allExact_iff (capacity : ℕ) (path checkpoint : String) (total : ℕ)
    (replies : PageReplies Row) :
    AllExact capacity path checkpoint total replies ↔
      total ≤ capacity ∧ ∀ served,
        PagesRead checkpoint total replies 0 0 served →
          PagesFill total served := by
  by_cases hcapacity : total ≤ capacity
  · rcases all_cases path checkpoint replies hcapacity with
      ⟨error, hfailed, hnone⟩ | ⟨served, hreads, hreturned⟩
    · constructor
      · intro _
        exact ⟨hcapacity, fun served hreads => absurd hreads (hnone served)⟩
      · intro _
        exact Or.inl ⟨error, hfailed⟩
    · have hiff := hreads.complete_iff
      constructor
      · intro hexact
        refine ⟨hcapacity, ?_⟩
        intro served' hreads'
        rw [← hreads.unique hreads', ← hiff]
        rcases hexact with
          ⟨error, hfailed⟩ | ⟨rows, other, hrows, hother, hcomplete⟩
        · rw [hreturned] at hfailed
          cases hfailed
        · rw [hreturned, Outcome.returned.injEq] at hrows
          rw [hrows, hreads.unique hother]
          exact hcomplete
      · intro hfill
        exact Or.inr ⟨servedRows served, served, hreturned, hreads,
          hiff.mpr (hfill.2 served hreads)⟩
  · have hcrashed : all capacity path checkpoint total replies = .crashed :=
      if_pos (by omega)
    constructor
    · intro hexact
      rcases hexact with ⟨error, hfailed⟩ | ⟨rows, other, hrows, _⟩
      · rw [hcrashed] at hfailed
        cases hfailed
      · rw [hcrashed] at hrows
        cases hrows
    · intro hfill
      exact absurd hfill.1 hcapacity

/-! ## The pending notes -/

/-- The pages of a read which its first page has announced the total of. -/
inductive PendingPagesRead (replies : PageReplies Row) :
    ℕ → List (ServedPage Row) → Prop
  | read {first : Page Row} {rest : List (ServedPage Row)}
      (hfirst : replies 0 = .ok first)
      (hrest : PagesRead first.checkpoint first.total replies 1 first.nextIndex
        rest) :
      PendingPagesRead replies first.total (⟨0, first⟩ :: rest)

def PendingExact (replies : PageReplies Row) : Prop :=
  (∃ error, pendingAll replies = .error error) ∨
    ∃ rows total served, pendingAll replies = .ok rows ∧
      PendingPagesRead replies total served ∧ CompleteRead total served rows

theorem pendingAll_eq_ok : pendingAll replies = .ok rows ↔
    ∃ total served, PendingPagesRead replies total served ∧
      rows = servedRows served := by
  unfold pendingAll
  cases hfirst : replies 0 with
  | error error =>
      constructor
      · intro hok
        cases hok
      · intro hread
        obtain ⟨total, served, hread, _⟩ := hread
        cases hread with
        | read hfirst' =>
            rw [hfirst] at hfirst'
            cases hfirst'
  | ok first =>
      have hpages : (if first.total ≤ first.nextIndex then .ok first.items
          else pagesFrom pendingStopped (fun _ => pendingStopped)
            first.checkpoint first.total replies 1 first.nextIndex
            first.items) =
          pagesFrom pendingStopped (fun _ => pendingStopped) first.checkpoint
            first.total replies 1 first.nextIndex first.items := by
        split
        · rename_i hend
          rw [pagesFrom, if_neg (by omega)]
        · rfl
      dsimp only
      rw [hpages, pagesFrom_eq_ok]
      constructor
      · intro hread
        obtain ⟨served, hreads, hrows⟩ := hread
        exact ⟨first.total, ⟨0, first⟩ :: served, .read hfirst hreads, hrows⟩
      · intro hread
        obtain ⟨total, served, hread, hrows⟩ := hread
        cases hread with
        | read hfirst' hrest =>
            rw [hfirst, Except.ok.injEq] at hfirst'
            subst hfirst'
            exact ⟨_, hrest, hrows⟩

theorem PendingPagesRead.unique {total' : ℕ} {served' : List (ServedPage Row)}
    (hreads : PendingPagesRead replies total served)
    (hreads' : PendingPagesRead replies total' served') :
    total = total' ∧ served = served' := by
  cases hreads with
  | read hfirst hrest =>
      cases hreads' with
      | read hfirst' hrest' =>
          rw [hfirst, Except.ok.injEq] at hfirst'
          subst hfirst'
          rw [hrest.unique hrest']
          exact ⟨rfl, rfl⟩

theorem PendingPagesRead.complete_iff (hreads : PendingPagesRead replies total served) :
    CompleteRead total served (servedRows served) ↔
      PagesFill total served := by
  refine completeRead_iff ?_
  cases hreads with
  | @read first rest hfirst hrest =>
      have htail := hrest.pagesTo.complete_iff
      rw [List.range_eq_range', ← forall_span_iff, List.map_cons,
        List.forall_mem_cons, ← htail]
      exact PagesTo.complete_cons (Nat.zero_le first.total) hrest.pagesTo

theorem pendingExact_iff (replies : PageReplies Row) :
    PendingExact replies ↔ ∀ total served,
      PendingPagesRead replies total served → PagesFill total served := by
  constructor
  · intro hexact total served hreads
    have hok := pendingAll_eq_ok.mpr ⟨total, served, hreads, rfl⟩
    rw [← hreads.complete_iff]
    rcases hexact with
      ⟨error, herror⟩ | ⟨rows, total', served', hrows, hreads', hcomplete⟩
    · rw [hok] at herror
      cases herror
    · rw [hok, Except.ok.injEq] at hrows
      obtain ⟨htotal, hserved⟩ := hreads.unique hreads'
      rw [hrows, htotal, hserved]
      exact hcomplete
  · intro hfill
    cases hresult : pendingAll replies with
    | error error => exact Or.inl ⟨error, hresult⟩
    | ok rows =>
        obtain ⟨total, served, hreads, hrows⟩ := pendingAll_eq_ok.mp hresult
        have hcomplete := hreads.complete_iff.mpr (hfill total served hreads)
        rw [← hrows] at hcomplete
        exact Or.inr ⟨rows, total, served, hresult, hreads, hcomplete⟩

/-! ## The snapshot of the notes tree -/

/-- The rows are numbered by their places. -/
def Dense (rows : List CommittedRow) : Prop :=
  rows.map (·.index) = List.range rows.length

/-- Leaf `i` is the note of the row with index `i`, for all announced ones. -/
structure ExactLeaves (noteCount : ℕ) (rows : List CommittedRow)
    (leaves : List String) : Prop where
  count : leaves.length = noteCount
  indices : rows.map (·.index) = List.range noteCount
  leaves : rows.map (fun row => hexToDec row.noteId) = leaves.map .ok

theorem leavesFrom_eq_ok {expected : ℕ} {rows : List CommittedRow}
    {leaves : List String} : leavesFrom expected rows = .ok leaves ↔
      rows.map (·.index) = List.range' expected rows.length ∧
        rows.map (fun row => hexToDec row.noteId) = leaves.map .ok := by
  induction rows generalizing expected leaves with
  | nil =>
      simp only [leavesFrom, Except.ok.injEq, List.map_nil, List.length_nil,
        List.range'_zero, true_and]
      constructor
      · intro heq
        rw [← heq, List.map_nil]
      · intro heq
        exact (List.map_eq_nil_iff.mp heq.symm).symm
  | cons row rest ih =>
      simp only [leavesFrom, List.map_cons, List.length_cons,
        List.range'_succ, List.cons.injEq]
      by_cases hindex : row.index = expected
      · rw [if_neg (not_not.mpr hindex)]
        cases hleaf : hexToDec row.noteId with
        | error error =>
            constructor
            · intro hok
              cases hok
            · intro hboth
              cases leaves with
              | nil => cases hboth.2
              | cons leaf others => cases hboth.2
        | ok leaf =>
            dsimp only
            cases hrest : leavesFrom (expected + 1) rest with
            | error error =>
                constructor
                · intro hok
                  cases hok
                · intro hboth
                  cases leaves with
                  | nil => cases hboth.2
                  | cons first others =>
                      simp only [List.map_cons, List.cons.injEq] at hboth
                      rw [ih.mpr ⟨hboth.1.2, hboth.2.2⟩] at hrest
                      cases hrest
            | ok others =>
                have hothers := ih.mp hrest
                simp only [Except.map, Except.ok.injEq]
                constructor
                · intro heq
                  rw [← heq, List.map_cons, hothers.2]
                  exact ⟨⟨hindex, hothers.1⟩, rfl⟩
                · intro hboth
                  cases leaves with
                  | nil => cases hboth.2
                  | cons first others' =>
                      simp only [List.map_cons, List.cons.injEq,
                        Except.ok.injEq] at hboth
                      have hsame := ih.mpr ⟨hboth.1.2, hboth.2.2⟩
                      rw [hrest, Except.ok.injEq] at hsame
                      rw [hboth.2.1, hsame]
      · rw [if_pos hindex]
        constructor
        · intro hok
          cases hok
        · intro hboth
          exact absurd hboth.1.1 hindex

variable {synced : Except String SyncMeta}
  {replies : PageReplies CommittedRow} {served : List (ServedPage CommittedRow)}

def SnapshotExact (capacity : ℕ) (synced : Except String SyncMeta)
    (replies : PageReplies CommittedRow) : Prop :=
  (∃ error, notesTreeSnapshot capacity synced replies = .failed error) ∨
    ∃ syncMeta leaves served, synced = .ok syncMeta ∧
      notesTreeSnapshot capacity synced replies =
        .returned (some ⟨syncMeta.checkpoint, syncMeta.notesRoot, leaves⟩) ∧
      PagesRead syncMeta.checkpoint syncMeta.noteCount replies 0 0 served ∧
      ExactLeaves syncMeta.noteCount (servedRows served) leaves

/-- The rows which are read can be made leaves of. -/
def Readable (rows : List CommittedRow) : Prop :=
  Dense rows ∧ ∀ row ∈ rows, ∃ leaf, hexToDec row.noteId = .ok leaf

theorem exists_leaves {rows : List CommittedRow}
    (hdecodes : ∀ row ∈ rows, ∃ leaf, hexToDec row.noteId = .ok leaf) :
    ∃ leaves : List String,
      rows.map (fun row => hexToDec row.noteId) = leaves.map .ok := by
  induction rows with
  | nil => exact ⟨[], rfl⟩
  | cons row rest ih =>
      obtain ⟨leaf, hleaf⟩ := hdecodes row List.mem_cons_self
      obtain ⟨leaves, hleaves⟩ := ih fun other hmem =>
        hdecodes other (List.mem_cons_of_mem row hmem)
      refine ⟨leaf :: leaves, ?_⟩
      rw [List.map_cons, List.map_cons, hleaf, hleaves]

theorem readable_of_leaves {rows : List CommittedRow} {leaves : List String}
    (hleaves : leavesFrom 0 rows = .ok leaves) : Readable rows := by
  obtain ⟨hindices, hdecoded⟩ := leavesFrom_eq_ok.mp hleaves
  refine ⟨hindices.trans List.range_eq_range'.symm, ?_⟩
  intro row hmem
  have hin : hexToDec row.noteId ∈ leaves.map Except.ok := by
    rw [← hdecoded]
    exact List.mem_map_of_mem hmem
  obtain ⟨leaf, _, hleaf⟩ := List.mem_map.mp hin
  exact ⟨leaf, hleaf.symm⟩

/-- What a read of all pages makes of the snapshot. -/
theorem notesTreeSnapshot_of_all {syncMeta : SyncMeta}
    {rows : List CommittedRow}
    (hall : all capacity "/sync/notes" syncMeta.checkpoint syncMeta.noteCount
      replies = .returned rows) :
    notesTreeSnapshot capacity (.ok syncMeta) replies =
      match leavesFrom 0 rows with
      | .error error => .failed error
      | .ok leaves =>
          .returned (some
            ⟨syncMeta.checkpoint, syncMeta.notesRoot, leaves⟩) := by
  simp only [notesTreeSnapshot, hall]

/-- The snapshot is exact as soon as the rows are as many as announced. -/
theorem snapshotExact_of_reads {syncMeta : SyncMeta}
    (hcapacity : syncMeta.noteCount ≤ capacity)
    (hreads : PagesRead syncMeta.checkpoint syncMeta.noteCount replies 0 0
      served) :
    SnapshotExact capacity (.ok syncMeta) replies ↔
      (Readable (servedRows served) →
        (servedRows served).length = syncMeta.noteCount) := by
  have hsnapshot := notesTreeSnapshot_of_all
    (hreads.all_eq "/sync/notes" hcapacity)
  cases hleaves : leavesFrom 0 (servedRows served) with
  | error error =>
      rw [hleaves] at hsnapshot
      constructor
      · intro _ hreadable
        obtain ⟨leaves, hdecoded⟩ := exists_leaves hreadable.2
        have hindices := hreadable.1.trans List.range_eq_range'
        rw [leavesFrom_eq_ok.mpr ⟨hindices, hdecoded⟩] at hleaves
        cases hleaves
      · intro _
        exact Or.inl ⟨error, hsnapshot⟩
  | ok leaves =>
      rw [hleaves] at hsnapshot
      have hreadable := readable_of_leaves hleaves
      have hdecoded := (leavesFrom_eq_ok.mp hleaves).2
      have hlength := congrArg List.length hdecoded
      simp only [List.length_map] at hlength
      constructor
      · intro hexact _
        rcases hexact with
          ⟨error, hfailed⟩ | ⟨other, leaves', served', hsynced, _, hreads',
            hexact⟩
        · rw [hsnapshot] at hfailed
          cases hfailed
        · cases hsynced
          have hcount := congrArg List.length hexact.indices
          rw [List.length_map, List.length_range, ← hreads.unique hreads']
            at hcount
          exact hcount
      · intro hcount
        have hall := hcount hreadable
        refine Or.inr ⟨syncMeta, leaves, served, rfl, hsnapshot, hreads, ?_⟩
        have hdense := hreadable.1
        rw [Dense, hall] at hdense
        exact ⟨hlength.symm.trans hall, hdense, hdecoded⟩

theorem snapshotExact_iff (capacity : ℕ) (synced : Except String SyncMeta)
    (replies : PageReplies CommittedRow) :
    SnapshotExact capacity synced replies ↔
      ∀ syncMeta, synced = .ok syncMeta → syncMeta.noteCount ≤ capacity ∧
        ∀ served,
          PagesRead syncMeta.checkpoint syncMeta.noteCount replies 0 0 served →
          Readable (servedRows served) →
          (servedRows served).length = syncMeta.noteCount := by
  cases synced with
  | error error =>
      constructor
      · intro _ syncMeta hsynced
        cases hsynced
      · intro _
        exact Or.inl ⟨.transport error, rfl⟩
  | ok syncMeta =>
      by_cases hcapacity : syncMeta.noteCount ≤ capacity
      · rcases all_cases "/sync/notes" syncMeta.checkpoint replies hcapacity
          with ⟨error, hfailed, hnone⟩ | ⟨served, hreads, _⟩
        · constructor
          · intro _ other hsynced
            cases hsynced
            exact ⟨hcapacity, fun served hreads =>
              absurd hreads (hnone served)⟩
          · intro _
            refine Or.inl ⟨.transport error, ?_⟩
            simp only [notesTreeSnapshot, hfailed]
        · rw [snapshotExact_of_reads hcapacity hreads]
          constructor
          · intro hcount other hsynced
            cases hsynced
            refine ⟨hcapacity, ?_⟩
            intro served' hreads'
            rw [← hreads.unique hreads']
            exact hcount
          · intro hcount
            exact (hcount syncMeta rfl).2 served hreads
      · have hcrashed : notesTreeSnapshot capacity (.ok syncMeta) replies =
            .crashed := by
          have hall : all capacity "/sync/notes" syncMeta.checkpoint
              syncMeta.noteCount replies = .crashed := if_pos (by omega)
          simp only [notesTreeSnapshot, hall]
        constructor
        · intro hexact
          rcases hexact with ⟨error, hfailed⟩ | ⟨other, leaves, _, _, hsome, _⟩
          · rw [hcrashed] at hfailed
            cases hfailed
          · rw [hcrashed] at hsome
            cases hsome
        · intro hcount
          exact absurd (hcount syncMeta rfl).1 hcapacity

/-! ## Every read comes to its end -/

theorem all_congr {other : PageReplies Row} {replies : PageReplies Row}
    (hsame : ∀ n < total, replies n = other n) :
    all capacity path checkpoint total replies =
      all capacity path checkpoint total other := by
  unfold all
  rw [pagesFrom_congr]
  intro n _ hlt
  exact hsame n (by omega)

theorem pendingAll_congr {other replies : PageReplies Row} {first : Page Row}
    (hfirst : replies 0 = .ok first)
    (hsame : ∀ n ≤ first.total, replies n = other n) :
    pendingAll replies = pendingAll other := by
  have hother := hsame 0 (Nat.zero_le _)
  rw [hfirst] at hother
  unfold pendingAll
  rw [hfirst, ← hother]
  dsimp only
  split
  · rfl
  · apply pagesFrom_congr
    intro n _ hlt
    exact hsame n (by omega)

theorem notesTreeSnapshot_congr {other : PageReplies CommittedRow}
    {syncMeta : SyncMeta}
    (hsame : ∀ n < syncMeta.noteCount, replies n = other n) :
    notesTreeSnapshot capacity (.ok syncMeta) replies =
      notesTreeSnapshot capacity (.ok syncMeta) other := by
  dsimp only [notesTreeSnapshot]
  rw [all_congr hsame]

/-- The three reads.  `notes` and `pending` are the replies to the pages of the
two collections, `collection` those of any other one. -/
structure IndexReplies (Row Pending : Type) where
  synced : Except String SyncMeta
  notes : PageReplies CommittedRow
  collection : PageReplies Row
  pending : PageReplies Pending

/-- No read needs more replies than were announced. -/
structure ReadsEnd {Row Pending : Type} (capacity : ℕ)
    (path checkpoint : String) (total : ℕ)
    (server : IndexReplies Row Pending) : Prop where
  snapshot : ∀ syncMeta, server.synced = .ok syncMeta →
    ∀ other : PageReplies CommittedRow,
      (∀ n < syncMeta.noteCount, server.notes n = other n) →
      notesTreeSnapshot capacity server.synced server.notes =
        notesTreeSnapshot capacity server.synced other
  all : ∀ other : PageReplies Row,
    (∀ n < total, server.collection n = other n) →
    all capacity path checkpoint total server.collection =
      all capacity path checkpoint total other
  pending : ∀ first, server.pending 0 = .ok first →
    ∀ other : PageReplies Pending,
      (∀ n ≤ first.total, server.pending n = other n) →
      pendingAll server.pending = pendingAll other

/-- Every read fails or is exact. -/
structure ReadsExact {Row Pending : Type} (capacity : ℕ)
    (path checkpoint : String) (total : ℕ)
    (server : IndexReplies Row Pending) : Prop where
  snapshot : SnapshotExact capacity server.synced server.notes
  all : AllExact capacity path checkpoint total server.collection
  pending : PendingExact server.pending

/-- What the server has to send.  A vector can be reserved for what it
announces, the pages of a read fill their places, and the rows of the notes
tree are as many as announced. -/
structure FullPages {Row Pending : Type} (capacity : ℕ) (checkpoint : String)
    (total : ℕ) (server : IndexReplies Row Pending) : Prop where
  noteCount : ∀ syncMeta, server.synced = .ok syncMeta →
    syncMeta.noteCount ≤ capacity
  notes : ∀ syncMeta served, server.synced = .ok syncMeta →
    PagesRead syncMeta.checkpoint syncMeta.noteCount server.notes 0 0 served →
    Readable (servedRows served) →
    (servedRows served).length = syncMeta.noteCount
  announced : total ≤ capacity
  collection : ∀ served, PagesRead checkpoint total server.collection 0 0 served →
    PagesFill total served
  pending : ∀ total served, PendingPagesRead server.pending total served →
    PagesFill total served

/-- The reads are exact as long as the server sends full pages, and come to
their end in any case. -/
theorem indexReads_exact {Row Pending : Type} (capacity : ℕ)
    (path checkpoint : String) (total : ℕ)
    (server : IndexReplies Row Pending) :
    ReadsEnd capacity path checkpoint total server ∧
      (ReadsExact capacity path checkpoint total server ↔
        FullPages capacity checkpoint total server) := by
  refine ⟨⟨?_, ?_, ?_⟩, ?_⟩
  · intro syncMeta hsynced other hsame
    rw [hsynced]
    exact notesTreeSnapshot_congr hsame
  · intro other hsame
    exact all_congr hsame
  · intro first hfirst other hsame
    exact pendingAll_congr hfirst hsame
  · have hsnapshot := snapshotExact_iff capacity server.synced server.notes
    have hall := allExact_iff capacity path checkpoint total server.collection
    have hpending := pendingExact_iff server.pending
    constructor
    · intro hexact
      have hnotes := hsnapshot.mp hexact.snapshot
      have hcollection := hall.mp hexact.all
      exact
        { noteCount := fun syncMeta hsynced => (hnotes syncMeta hsynced).1
          notes := fun syncMeta served hsynced =>
            (hnotes syncMeta hsynced).2 served
          announced := hcollection.1
          collection := hcollection.2
          pending := hpending.mp hexact.pending }
    · intro hfull
      refine ⟨hsnapshot.mpr ?_, hall.mpr ⟨hfull.announced, hfull.collection⟩,
        hpending.mpr hfull.pending⟩
      intro syncMeta hsynced
      exact ⟨hfull.noteCount syncMeta hsynced, fun served =>
        hfull.notes syncMeta served hsynced⟩

/-- Two notes are announced, and the only page jumps past the second one. -/
def skippingPage : Page CommittedRow := ⟨"0xc1", 2, 2, [⟨0, "0x0a"⟩]⟩

def skippingMeta : SyncMeta := ⟨"0xc1", "7", 2⟩

def skippingServer : IndexReplies CommittedRow CommittedRow where
  synced := .ok skippingMeta
  notes _ := .ok skippingPage
  collection _ := .ok skippingPage
  pending _ := .ok skippingPage

theorem indexReads_skipped :
    notesTreeSnapshot 10 skippingServer.synced skippingServer.notes =
        .returned (some ⟨"0xc1", "7", ["10"]⟩) ∧
      ¬ ReadsExact 10 "/sync/nullifiers" "0xc1" 2 skippingServer := by
  have hreads : PagesRead "0xc1" 2 skippingServer.notes 0 0 [⟨0, skippingPage⟩] :=
    .page (by decide) rfl rfl rfl (.done le_rfl)
  have hdecoded : hexToDec "0x0a" = .ok "10" := by decide +kernel
  have hleaves : leavesFrom 0 (servedRows [⟨0, skippingPage⟩]) =
      .ok ["10"] := by
    simp [servedRows, skippingPage, leavesFrom, hdecoded, Except.map]
  constructor
  · have hall := hreads.all_eq "/sync/notes" (by decide : 2 ≤ 10)
    have hsnapshot := @notesTreeSnapshot_of_all 10 _ skippingMeta _ hall
    rw [hleaves] at hsnapshot
    exact hsnapshot
  · intro hexact
    have hcount := (@snapshotExact_of_reads 10 _ _ skippingMeta (by decide)
      hreads).mp hexact.snapshot (readable_of_leaves hleaves)
    cases hcount

end HoprStrategy.Curvy.Indexer
