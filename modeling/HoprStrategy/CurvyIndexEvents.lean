import HoprStrategy.CurvyIndexReads
import HoprStrategy.Library.RowRuns
import HoprStrategy.Library.StableSort
import Mathlib.Data.Nat.Digits.Lemmas

/-!
# Events of Curvy's index

The rows of the indexer become the events which the client replays.  Rows of
one transaction in a row make one event, whose position is the index of its
first row, and the client sorts the events by it.
-/

namespace HoprStrategy.Curvy.Indexer

open Library

/-! ## Ids -/

def hexDigits (value : String) : List Char :=
  (stripHexPrefix value.toList).getD value.toList

/-- Canonical 32-byte hex: lowercase, with a prefix and padded with zeros. -/
def canonicalHex32 (value : String) : Except String String :=
  let digits := hexDigits value
  if digits.isEmpty || 64 < digits.length ||
      ! digits.all isAsciiHexdigit then
    .error ("expected a 32-byte hex value, got " ++ value.quote)
  else
    .ok (String.ofList
      ('0' :: 'x' :: (digits.map Char.toLower).leftpad 64 '0'))

def chainError (error : String) : ChainError := .transport error

def toDec (value : String) : Except ChainError String :=
  (hexToDec value).mapError chainError

/-! ## Rows -/

structure PendingRow where
  noteId : String
  ephemeralKey : Option (String × String)
  viewTag : Option ℕ
  amount : Option String
  token : Option String
  isPlaintext : Option Bool
  blockNumber : ℕ
  requestTxHash : String
  deriving DecidableEq

structure CommitRow extends CommittedRow where
  commitBlockNumber : ℕ
  commitTxHash : String
  deriving DecidableEq

structure NullifierRow where
  index : ℕ
  nullifier : String
  blockNumber : Option ℕ
  txHash : Option String
  deriving DecidableEq

/-- The blocks of a request, both ends included. -/
structure BlockRange where
  fromBlock : ℕ
  toBlock : ℕ

def BlockRange.contains (range : BlockRange) (block : ℕ) : Bool :=
  range.fromBlock ≤ block && block ≤ range.toBlock

def PendingRow.within (range : BlockRange) (row : PendingRow) : Bool :=
  range.contains row.blockNumber

def CommitRow.within (range : BlockRange) (row : CommitRow) : Bool :=
  range.contains row.commitBlockNumber

/-- A nullifier of no known block is in every range. -/
def NullifierRow.within (range : BlockRange) (row : NullifierRow) : Bool :=
  row.blockNumber.all range.contains

/-! ## Events -/

structure PendingNotesEvent where
  blockNumber : ℕ
  txHash : String
  noteIds : List String
  ephemeralKeys : List String × List String
  viewTags : List ℕ
  tokens : List String
  amounts : List String
  isPlaintext : List Bool
  deriving DecidableEq

structure CommittedNotesEvent where
  batchIndex : ℕ
  blockNumber : ℕ
  noteIds : List String
  deriving DecidableEq

/-- What a row adds to the arrays of its event. -/
structure PendingItem where
  noteId : String
  ephemeralKey : String × String
  viewTag : ℕ
  token : String
  amount : String
  isPlaintext : Bool
  deriving DecidableEq

def ephemeralKeyOf (row : PendingRow) : Except ChainError (String × String) :=
  match row.ephemeralKey with
  | none =>
      .error (chainError s!"pending note {row.noteId} has no ephemeral key")
  | some key => .ok key

def pendingItem (row : PendingRow) : Except ChainError PendingItem := do
  let key ← ephemeralKeyOf row
  let noteId ← toDec row.noteId
  let keyX ← toDec key.1
  let keyY ← toDec key.2
  let token ← toDec (row.token.getD "0")
  let amount ← toDec (row.amount.getD "0")
  .ok
    { noteId
      ephemeralKey := (keyX, keyY)
      viewTag := row.viewTag.getD 0
      token
      amount
      isPlaintext := row.isPlaintext.getD false }

def PendingNotesEvent.push (event : PendingNotesEvent) (item : PendingItem) :
    PendingNotesEvent :=
  { event with
    noteIds := event.noteIds ++ [item.noteId]
    ephemeralKeys :=
      (event.ephemeralKeys.1 ++ [item.ephemeralKey.1],
        event.ephemeralKeys.2 ++ [item.ephemeralKey.2])
    viewTags := event.viewTags ++ [item.viewTag]
    tokens := event.tokens ++ [item.token]
    amounts := event.amounts ++ [item.amount]
    isPlaintext := event.isPlaintext ++ [item.isPlaintext] }

def pendingGrouping : Grouping ChainError PendingRow String PendingNotesEvent where
  key row := (canonicalHex32 row.requestTxHash).mapError chainError
  start txHash row := ⟨row.blockNumber, txHash, [], ([], []), [], [], [], []⟩
  push event row := (pendingItem row).map event.push

def committedGrouping :
    Grouping ChainError CommitRow String CommittedNotesEvent where
  key row := .ok row.commitTxHash
  start _ row := ⟨row.index, row.commitBlockNumber, []⟩
  push event row := (toDec row.noteId).map fun id =>
    { event with noteIds := event.noteIds ++ [id] }

/-- The events of the rows which a read has returned. -/
def pendingNotes (rows : List PendingRow) (range : BlockRange) :
    Outcome ChainError (List PendingNotesEvent) :=
  pendingGrouping.groupRows (rows.filter (·.within range))

def committedNotes (rows : List CommitRow) (range : BlockRange) :
    Outcome ChainError (List CommittedNotesEvent) :=
  committedGrouping.groupRows (rows.filter (·.within range))

end HoprStrategy.Curvy.Indexer
