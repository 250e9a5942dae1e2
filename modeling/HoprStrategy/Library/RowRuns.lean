import HoprStrategy.Library.CheckedWords
import HoprStrategy.Library.Fallible

/-!
# Rows grouped into events

Rows are read one after another.  A row whose key is not that of the row before
opens an event, and every row appends its item to the event which is open.  So
the events are the runs of rows of one key, and nothing is lost between them.
-/

namespace HoprStrategy.Library

variable {ε Row Key Item Event : Type}

/-- The key of a row, the event which a row opens and what it appends. -/
structure Grouping (ε Row Key Event : Type) where
  key : Row → Except ε Key
  start : Key → Row → Event
  push : Event → Row → Except ε Event

namespace Grouping

variable [DecidableEq Key] (grouping : Grouping ε Row Key Event)

/-- The loop over the rows, with the events so far and the key before. -/
def groupFrom (events : List Event) (lastKey : Option Key) :
    List Row → Outcome ε (List Event)
  | [] => .returned events
  | row :: rest => do
      let key ← .ofExcept (grouping.key row)
      let opened :=
        if lastKey ≠ some key then events ++ [grouping.start key row]
        else events
      match opened.getLast? with
      | none => .crashed
      | some event => do
          let pushed ← .ofExcept (grouping.push event row)
          groupFrom (opened.dropLast ++ [pushed]) (some key) rest

def groupRows (rows : List Row) : Outcome ε (List Event) :=
  grouping.groupFrom [] none rows

/-- What the loop reads of a row, its key first. -/
def read (item : Row → Except ε Item) (row : Row) : Except ε Item :=
  grouping.key row >>= fun _ => item row

/-- An event is made of its first row and the items of its rows. -/
structure Appends (item : Row → Except ε Item)
    (event : Key → Row → List Item → Event) : Prop where
  start : ∀ key row, grouping.start key row = event key row []
  push : ∀ key first items row,
    grouping.push (event key first items) row =
      (item row).map fun next => event key first (items ++ [next])

end Grouping

/-- Rows of one key, with their items. -/
structure Run (Key Row Item : Type) where
  key : Key
  first : Row
  rest : List Row
  items : List Item

def Run.rows (run : Run Key Row Item) : List Row := run.first :: run.rest

def Run.event (event : Key → Row → List Item → Event)
    (run : Run Key Row Item) : Event :=
  event run.key run.first run.items

structure Run.Reads (key : Row → Except ε Key) (item : Row → Except ε Item)
    (run : Run Key Row Item) : Prop where
  keys : ∀ row ∈ run.rows, key row = .ok run.key
  items : run.rows.mapM item = .ok run.items

def rowsOf (runs : List (Run Key Row Item)) : List Row :=
  (runs.map Run.rows).flatten

/-- What the loop has made of the rows which it has read. -/
inductive Grouped (key : Row → Except ε Key) (item : Row → Except ε Item)
    (event : Key → Row → List Item → Event) :
    List Row → List Event → Option Key → Prop
  | nothing : Grouped key item event [] [] none
  | runs (closed : List (Run Key Row Item)) (last : Run Key Row Item)
      (hclosed : ∀ run ∈ closed, run.Reads key item)
      (hlast : last.Reads key item) :
      Grouped key item event (rowsOf closed ++ last.rows)
        (closed.map (Run.event event) ++ [last.event event]) (some last.key)

namespace Grouped

variable {grouping : Grouping ε Row Key Event} [DecidableEq Key]
  {item : Row → Except ε Item} {event : Key → Row → List Item → Event}
  {done : List Row} {events : List Event} {lastKey : Option Key}

theorem mapM_append_singleton {rows : List Row} {row : Row} {items : List Item}
    {next : Item} (hrows : rows.mapM item = .ok items)
    (hrow : item row = .ok next) :
    (rows ++ [row]).mapM item = .ok (items ++ [next]) := by
  rw [List.mapM_append, hrows, List.mapM_cons, hrow, List.mapM_nil]
  rfl

omit [DecidableEq Key] in
/-- A run of the row alone. -/
theorem reads_single {row : Row} {key : Key} {next : Item}
    (hkey : grouping.key row = .ok key) (hitem : item row = .ok next) :
    (⟨key, row, [], [next]⟩ : Run Key Row Item).Reads grouping.key item where
  keys := by
    intro other hmem
    rw [List.mem_singleton.mp hmem]
    exact hkey
  items := by
    change [row].mapM item = .ok [next]
    rw [List.mapM_cons, hitem, List.mapM_nil]
    rfl

/-- The open event takes the row, or a new one does. -/
theorem next (happends : grouping.Appends item event)
    (hgrouped : Grouped grouping.key item event done events lastKey)
    {row : Row} {key : Key} (hkey : grouping.key row = .ok key) :
    ∃ current extend,
      (if lastKey ≠ some key then events ++ [grouping.start key row]
        else events).getLast? = some current ∧
      grouping.push current row = (item row).map extend ∧
      ∀ next, item row = .ok next →
        Grouped grouping.key item event (done ++ [row])
          ((if lastKey ≠ some key then events ++ [grouping.start key row]
            else events).dropLast ++ [extend next]) (some key) := by
  by_cases hsame : lastKey = some key
  · rw [if_neg (not_not.mpr hsame)]
    cases hgrouped with
    | nothing => cases hsame
    | runs closed last hclosed hlast =>
        cases hsame
        refine ⟨_, _, List.getLast?_concat, happends.push _ _ _ _, ?_⟩
        intro next hnext
        rw [List.dropLast_concat, List.append_assoc]
        refine Grouped.runs closed
          ⟨last.key, last.first, last.rest ++ [row], last.items ++ [next]⟩
          hclosed ⟨?_, ?_⟩
        · intro other hmem
          rcases List.mem_append.mp
            (show other ∈ last.rows ++ [row] from hmem) with hold | hnew
          · exact hlast.keys other hold
          · rw [List.mem_singleton.mp hnew]
            exact hkey
        · exact mapM_append_singleton hlast.items hnext
  · rw [if_pos hsame]
    refine ⟨_, _, List.getLast?_concat,
      (congrArg (grouping.push · row) (happends.start key row)).trans
        (happends.push _ _ _ _), ?_⟩
    intro next hnext
    rw [List.dropLast_concat]
    have hsingle := reads_single hkey hnext
    cases hgrouped with
    | nothing =>
        exact Grouped.runs [] _ (by simp) hsingle
    | runs closed last hclosed hlast =>
        have hruns : Grouped grouping.key item event _ _ _ :=
          Grouped.runs (closed ++ [last]) _ (by
            intro run hmem
            rcases List.mem_append.mp hmem with hold | hnew
            · exact hclosed run hold
            · rw [List.mem_singleton.mp hnew]
              exact hlast) hsingle
        simpa [rowsOf, Run.rows, Run.event] using hruns

end Grouped

section

variable [DecidableEq Key] {grouping : Grouping ε Row Key Event}
  {item : Row → Except ε Item} {event : Key → Row → List Item → Event}

end

end HoprStrategy.Library
