import Mathlib.Order.Defs.LinearOrder
import Mathlib.Tactic

/-!
# Reading an append-only event log through a cursor

Events have stable positions in a linear order, and the log is sorted by them.
A reader asks for the events after a cursor, works through the answer one event
at a time and moves its cursor along.  `Reading` says that what the reader
still holds continues the log at its cursor; it survives growth of the log and
every step of the reader.
-/

namespace HoprStrategy.Library

variable {Event Position : Type} [LinearOrder Position]

/-- Strictly after the cursor; without a cursor everything is. -/
def Later (after : Option Position) (position : Position) : Prop :=
  ∀ cursor ∈ after, cursor < position

instance (after : Option Position) (position : Position) :
    Decidable (Later after position) :=
  match after with
  | none => .isTrue (fun _ h => by cases h)
  | some cursor =>
      decidable_of_iff (cursor < position)
        ⟨fun h _ hcursor => Option.mem_some_iff.mp hcursor ▸ h,
          fun h => h cursor rfl⟩

@[simp] theorem later_none (position : Position) : Later none position :=
  fun _ h => by cases h

@[simp] theorem later_some (cursor position : Position) :
    Later (some cursor) position ↔ cursor < position :=
  ⟨fun h => h cursor rfl, fun h _ hcursor =>
    Option.mem_some_iff.mp hcursor ▸ h⟩

theorem Later.trans {after : Option Position} {cursor position : Position}
    (hcursor : Later after cursor) (hlt : cursor < position) :
    Later after position :=
  fun start hstart => lt_trans (hcursor start hstart) hlt

variable (position : Event → Position)

def eventsAfter (log : List Event) (after : Option Position) : List Event :=
  log.filter fun event => Later after (position event)

/-- The answer to a page request. -/
def eventPage (log : List Event) (after : Option Position) (first : ℕ) :
    List Event :=
  (eventsAfter position log after).take first

def Chronological (log : List Event) : Prop :=
  log.Pairwise fun earlier later => position earlier < position later

/-- `rest` continues the log at the cursor. -/
def Reading (log : List Event) (after : Option Position)
    (rest : List Event) : Prop :=
  rest <+: eventsAfter position log after

variable {position} {log more rest : List Event} {event : Event}
  {after : Option Position}

theorem Reading.page (log : List Event) (after : Option Position)
    (first : ℕ) :
    Reading position log after (eventPage position log after first) :=
  List.take_prefix _ _

theorem Reading.grow (hreading : Reading position log after rest) :
    Reading position (log ++ more) after rest := by
  unfold Reading eventsAfter at hreading ⊢
  rw [List.filter_append]
  exact hreading.trans (List.prefix_append _ _)

theorem Reading.mem (hreading : Reading position log after rest)
    (hevent : event ∈ rest) : event ∈ log :=
  List.mem_of_mem_filter (hreading.subset hevent)

theorem Reading.later (hreading : Reading position log after rest)
    (hevent : event ∈ rest) : Later after (position event) := by
  simpa using List.of_mem_filter (hreading.subset hevent)

variable (position) in
/-- The cursor is the position of an event of the log, or genesis. -/
def Behind (log : List Event) (after : Option Position) : Prop :=
  ∀ cursor ∈ after, ∃ event ∈ log, position event = cursor

omit [LinearOrder Position] in
theorem Behind.genesis : Behind position log none := by
  intro _ h
  cases h

omit [LinearOrder Position] in
theorem Behind.ofMem (hevent : event ∈ log) :
    Behind position log (some (position event)) := by
  intro cursor hcursor
  exact ⟨event, hevent, Option.mem_some_iff.mp hcursor⟩

omit [LinearOrder Position] in
theorem Behind.grow (hbehind : Behind position log after) :
    Behind position (log ++ more) after := by
  intro cursor hcursor
  obtain ⟨event, hevent, heq⟩ := hbehind cursor hcursor
  exact ⟨event, List.mem_append_left _ hevent, heq⟩

/-- What the log grows by is ahead of every reader. -/
theorem Behind.later_of_grow (hbehind : Behind position log after)
    (hsorted : Chronological position (log ++ more)) (hevent : event ∈ more) :
    Later after (position event) := by
  intro cursor hcursor
  obtain ⟨earlier, hearlier, rfl⟩ := hbehind cursor hcursor
  exact (List.pairwise_append.mp hsorted).2.2 earlier hearlier event hevent

/-- The head of what is left is the next event of the log, and the tail goes
on from there. -/
theorem Reading.advance (hsorted : Chronological position log)
    (hreading : Reading position log after (event :: rest)) :
    Reading position log (some (position event)) rest ∧
      ∀ other ∈ log, Later after (position other) →
        ¬ position event < position other → other = event := by
  obtain ⟨suffix, hsuffix⟩ := hreading
  have hhead : Later after (position event) :=
    Reading.later ⟨suffix, hsuffix⟩ List.mem_cons_self
  have hchron : (event :: (rest ++ suffix)).Pairwise
      fun earlier later => position earlier < position later := by
    have hfilter : Chronological position (eventsAfter position log after) :=
      List.Pairwise.sublist List.filter_sublist hsorted
    rw [← hsuffix] at hfilter
    simpa [Chronological] using hfilter
  have htail := (List.pairwise_cons.mp hchron).1
  have hafter : eventsAfter position log (some (position event)) =
      rest ++ suffix := by
    have hnarrow : eventsAfter position log (some (position event)) =
        (eventsAfter position log after).filter
          fun other => position event < position other := by
      unfold eventsAfter
      rw [List.filter_filter]
      apply List.filter_congr
      intro other _
      by_cases hlt : position event < position other
      · simp [hlt, hhead.trans hlt]
      · simp [hlt]
    rw [hnarrow, ← hsuffix, List.cons_append, List.filter_cons_of_neg (by simp),
      List.filter_eq_self]
    intro other hother
    simpa using htail other hother
  refine ⟨⟨suffix, hafter.symm⟩, ?_⟩
  intro other hother hlater hnot
  have hmem : other ∈ event :: (rest ++ suffix) := by
    rw [← List.cons_append, hsuffix]
    exact List.mem_filter.mpr ⟨hother, by simpa using hlater⟩
  obtain heq | hrest := List.mem_cons.mp hmem
  · exact heq
  · exact absurd (htail other hrest) hnot

variable (position) in
/-- Among the events of a kind one is the last. -/
theorem exists_last (log : List Event) (Kind : Event → Prop)
    (hexists : ∃ event ∈ log, Kind event) :
    ∃ event ∈ log, Kind event ∧
      ∀ other ∈ log, Kind other → position other ≤ position event := by
  induction log with
  | nil =>
      obtain ⟨event, hmem, _⟩ := hexists
      cases hmem
  | cons head rest ih =>
      by_cases hrest : ∃ event ∈ rest, Kind event
      · obtain ⟨last, hmem, hkind, hlast⟩ := ih hrest
        by_cases hhead : Kind head ∧ position last < position head
        · refine ⟨head, List.mem_cons_self, hhead.1, ?_⟩
          intro other hother hkind'
          rcases List.mem_cons.mp hother with rfl | hin
          · exact le_refl _
          · exact le_of_lt (lt_of_le_of_lt (hlast other hin hkind') hhead.2)
        · refine ⟨last, List.mem_cons_of_mem head hmem, hkind, ?_⟩
          intro other hother hkind'
          rcases List.mem_cons.mp hother with rfl | hin
          · exact le_of_not_gt fun hlt => hhead ⟨hkind', hlt⟩
          · exact hlast other hin hkind'
      · obtain ⟨event, hmem, hkind⟩ := hexists
        rcases List.mem_cons.mp hmem with rfl | hin
        · refine ⟨event, List.mem_cons_self, hkind, ?_⟩
          intro other hother hkind'
          rcases List.mem_cons.mp hother with rfl | hin
          · exact le_refl _
          · exact absurd ⟨other, hin, hkind'⟩ hrest
        · exact absurd ⟨event, hin, hkind⟩ hrest

end HoprStrategy.Library
