import HoprStrategy.Library.ProgramMonitor
import HoprStrategy.Library.TaskList
import Mathlib.Logic.Relation

/-!
# Cells which are filled once

A once cell is shared by callers which all want its value.  An empty cell is
filled by the initialiser of a caller: one initialiser runs at a time, and the
other callers wait for it.  An initialiser which fails, or whose caller goes
away, leaves the cell empty, and the next caller starts over.

The initialisers are programs, so their calls interleave with everything else
that happens to the cell.  `CellRule` is what a monitor has to know of them,
and `Kept` is what then holds after any run.  A cell which has its value is
never filled again, and nothing is asked for it.
-/

namespace HoprStrategy.Library

/-- A caller of the cell. -/
inductive Caller (Call : Type) (Reply : Call → Type) (ε α : Type) where
  | waiting (init : Program Call Reply ε α)
  | running (rest : Program Call Reply ε α)
  | answered (answer : Except ε α)
  | dropped

structure OnceCell (Call : Type) (Reply : Call → Type) (ε α World : Type) where
  value : Option α
  world : World
  callers : List (Caller Call Reply ε α)

namespace OnceCell

variable {Call : Type} {Reply : Call → Type} {ε α World Stage : Type}

/-- No initialiser runs. -/
def Quiet (cell : OnceCell Call Reply ε α World) : Prop :=
  ∀ rest, Caller.running rest ∉ cell.callers

def put (cell : OnceCell Call Reply ε α World) (index : ℕ)
    (caller : Caller Call Reply ε α) : OnceCell Call Reply ε α World :=
  { cell with callers := cell.callers.set index caller }

@[simp] theorem put_value (cell : OnceCell Call Reply ε α World) (index : ℕ)
    (caller : Caller Call Reply ε α) :
    (cell.put index caller).value = cell.value := rfl

@[simp] theorem put_world (cell : OnceCell Call Reply ε α World) (index : ℕ)
    (caller : Caller Call Reply ε α) :
    (cell.put index caller).world = cell.world := rfl

/-- What can happen to a cell.  Time passes, and anything else changes, by
`drift`. -/
inductive Step (env : Environment Call Reply World)
    (drift : World → World → Prop)
    (Initialiser : Program Call Reply ε α → Prop) :
    OnceCell Call Reply ε α World → OnceCell Call Reply ε α World → Prop
  | come {cell : OnceCell Call Reply ε α World}
      {init : Program Call Reply ε α} (hinit : Initialiser init) :
      Step env drift Initialiser cell
        { cell with callers := cell.callers ++ [.waiting init] }
  | found {cell : OnceCell Call Reply ε α World} {index : ℕ}
      {init : Program Call Reply ε α} {value : α}
      (hcaller : cell.callers[index]? = some (.waiting init))
      (hvalue : cell.value = some value) :
      Step env drift Initialiser cell (cell.put index (.answered (.ok value)))
  | enter {cell : OnceCell Call Reply ε α World} {index : ℕ}
      {init : Program Call Reply ε α}
      (hcaller : cell.callers[index]? = some (.waiting init))
      (hvalue : cell.value = none) (hquiet : cell.Quiet) :
      Step env drift Initialiser cell (cell.put index (.running init))
  | ask {cell : OnceCell Call Reply ε α World} {index : ℕ} {request : Call}
      {rest : Reply request → Program Call Reply ε α}
      {reply : Reply request} {after : World}
      (hcaller : cell.callers[index]? = some (.running (.call request rest)))
      (henv : env cell.world request reply after) :
      Step env drift Initialiser cell
        { cell.put index (.running (rest reply)) with world := after }
  | fill {cell : OnceCell Call Reply ε α World} {index : ℕ} {value : α}
      (hcaller : cell.callers[index]? = some (.running (.pure value))) :
      Step env drift Initialiser cell
        { cell.put index (.answered (.ok value)) with value := some value }
  | fail {cell : OnceCell Call Reply ε α World} {index : ℕ} {error : ε}
      (hcaller : cell.callers[index]? = some (.running (.throw error))) :
      Step env drift Initialiser cell
        (cell.put index (.answered (.error error)))
  -- A caller goes away when it likes, also while its initialiser runs.
  | drop {cell : OnceCell Call Reply ε α World} {index : ℕ} :
      Step env drift Initialiser cell (cell.put index .dropped)
  | pass {cell : OnceCell Call Reply ε α World} {after : World}
      (hdrift : drift cell.world after) :
      Step env drift Initialiser cell { cell with world := after }

/-- The cells a run leads to. -/
def Reaches (env : Environment Call Reply World)
    (drift : World → World → Prop)
    (Initialiser : Program Call Reply ε α → Prop) :
    OnceCell Call Reply ε α World → OnceCell Call Reply ε α World → Prop :=
  Relation.ReflTransGen (Step env drift Initialiser)

variable {env : Environment Call Reply World} {drift : World → World → Prop}
  {Initialiser : Program Call Reply ε α → Prop}
  {cell after : OnceCell Call Reply ε α World}

/-- What every reply and all that happens beside keeps holds after any
run. -/
theorem always {Inv : World → Prop}
    (hreaches : Reaches env drift Initialiser cell after)
    (hask : ∀ world request reply next, Inv world →
      env world request reply next → Inv next)
    (hpass : ∀ world next, Inv world → drift world next → Inv next)
    (hinv : Inv cell.world) : Inv after.world := by
  induction hreaches with
  | refl => exact hinv
  | tail _ hstep ih =>
      cases hstep with
      | ask hcaller henv => exact hask _ _ _ _ ih henv
      | pass hdrift => exact hpass _ _ ih hdrift
      | _ => exact ih

/-! ## A filled cell -/

/-- The cell has a value, and whoever got one got this one. -/
structure Settled (value : α) (cell : OnceCell Call Reply ε α World) :
    Prop where
  value_eq : cell.value = some value
  quiet : cell.Quiet
  agreed : ∀ answer, Caller.answered (.ok answer) ∈ cell.callers →
    answer = value

theorem mem_put {index : ℕ} {caller other : Caller Call Reply ε α}
    (hmem : caller ∈ (cell.put index other).callers) :
    caller = other ∨ caller ∈ cell.callers :=
  (List.mem_or_eq_of_mem_set hmem).symm

theorem Quiet.put {index : ℕ} {caller : Caller Call Reply ε α}
    (hquiet : cell.Quiet) (hcaller : ∀ rest, caller ≠ .running rest) :
    (cell.put index caller).Quiet := by
  intro rest hmem
  rcases mem_put hmem with heq | hmem
  · exact hcaller rest heq.symm
  · exact hquiet rest hmem

theorem Settled.put {value : α} {index : ℕ} {caller : Caller Call Reply ε α}
    (hsettled : cell.Settled value) (hcaller : ∀ rest, caller ≠ .running rest)
    (hanswer : ∀ answer, caller = .answered (.ok answer) → answer = value) :
    (cell.put index caller).Settled value where
  value_eq := hsettled.value_eq
  quiet := hsettled.quiet.put hcaller
  agreed := by
    intro answer hmem
    rcases mem_put hmem with heq | hmem
    · exact hanswer answer heq.symm
    · exact hsettled.agreed answer hmem

/-- Nothing is asked for a cell which has its value. -/
theorem Settled.step {value : α} (hsettled : cell.Settled value)
    (hstep : Step env drift Initialiser cell after) :
    after.Settled value ∧
      Relation.ReflTransGen drift cell.world after.world := by
  cases hstep with
  | come hinit =>
      refine ⟨⟨hsettled.value_eq, ?_, ?_⟩, .refl⟩
      · intro rest hmem
        rcases List.mem_append.mp hmem with hmem | hmem
        · exact hsettled.quiet rest hmem
        · simp at hmem
      · intro answer hmem
        rcases List.mem_append.mp hmem with hmem | hmem
        · exact hsettled.agreed answer hmem
        · simp at hmem
  | found hcaller hvalue =>
      refine ⟨hsettled.put (by simp) ?_, .refl⟩
      intro answer hanswer
      have heq := hsettled.value_eq
      rw [hvalue] at heq
      simp only [Caller.answered.injEq, Except.ok.injEq] at hanswer
      exact hanswer ▸ Option.some.inj heq
  | enter hcaller hvalue hquiet =>
      have heq := hsettled.value_eq
      rw [hvalue] at heq
      cases heq
  | ask hcaller henv =>
      exact absurd (List.mem_of_getElem? hcaller) (hsettled.quiet _)
  | fill hcaller =>
      exact absurd (List.mem_of_getElem? hcaller) (hsettled.quiet _)
  | fail hcaller =>
      exact absurd (List.mem_of_getElem? hcaller) (hsettled.quiet _)
  | drop =>
      exact ⟨hsettled.put (by simp) (by simp), .refl⟩
  | pass hdrift =>
      exact ⟨⟨hsettled.value_eq, hsettled.quiet, hsettled.agreed⟩,
        .single hdrift⟩

theorem Settled.reaches {value : α} (hsettled : cell.Settled value)
    (hreaches : Reaches env drift Initialiser cell after) :
    after.Settled value ∧
      Relation.ReflTransGen drift cell.world after.world := by
  induction hreaches with
  | refl => exact ⟨hsettled, .refl⟩
  | tail _ hstep ih =>
      obtain ⟨hmiddle, hdrift⟩ := ih
      obtain ⟨hafter, hlast⟩ := hmiddle.step hstep
      exact ⟨hafter, hdrift.trans hlast⟩

/-! ## What the initialisers keep to -/

/-- Every initialiser meets the monitor from a stage which an idle world
shows, what else happens leaves the stage alone, and a world in which an
initialiser was given up is idle again.  What a world has told of the error of
a caller stays told. -/
structure CellRule (env : Environment Call Reply World)
    (drift : World → World → Prop)
    (Initialiser : Program Call Reply ε α → Prop)
    (monitor : Monitor Call Reply Stage) (Shows : World → Stage → Prop)
    (idle : Stage) (post : α → Stage → Prop) (fail : ε → Stage → Prop)
    (told : World → ℕ → ε → Prop) : Prop where
  shown : Program.Shown env monitor Shows
  enter : ∀ init, Initialiser init → ∀ world, Shows world idle →
    ∃ stage, Shows world stage ∧ init.Meets monitor post fail stage
  restart : ∀ world stage, Shows world stage → Shows world idle
  stable : ∀ world after stage, drift world after → Shows world stage →
    Shows after stage
  telling : ∀ world stage index error, Shows world stage →
    fail error stage → told world index error
  toldAfter : ∀ world request reply after index error,
    env world request reply after → told world index error →
    told after index error
  toldLater : ∀ world after index error, drift world after →
    told world index error → told after index error

/-- What holds of a cell and its callers after any run. -/
structure Kept (Initialiser : Program Call Reply ε α → Prop)
    (monitor : Monitor Call Reply Stage) (Shows : World → Stage → Prop)
    (idle : Stage) (post : α → Stage → Prop) (fail : ε → Stage → Prop)
    (told : World → ℕ → ε → Prop) (cell : OnceCell Call Reply ε α World) :
    Prop where
  shows : Shows cell.world idle
  filled : ∀ value, cell.value = some value →
    cell.Settled value ∧ ∃ stage, Shows cell.world stage ∧ post value stage
  empty : cell.value = none →
    ∀ answer, Caller.answered (.ok answer) ∉ cell.callers
  alone : ∀ (first second : ℕ) (rest other : Program Call Reply ε α),
    cell.callers[first]? = some (.running rest) →
    cell.callers[second]? = some (.running other) → first = second
  running : ∀ rest, Caller.running rest ∈ cell.callers →
    ∃ stage, Shows cell.world stage ∧ rest.Meets monitor post fail stage
  waiting : ∀ init, Caller.waiting init ∈ cell.callers → Initialiser init
  failed : ∀ index error,
    cell.callers[index]? = some (.answered (.error error)) →
    told cell.world index error

section

variable {monitor : Monitor Call Reply Stage} {Shows : World → Stage → Prop}
  {idle : Stage} {post : α → Stage → Prop} {fail : ε → Stage → Prop}
  {told : World → ℕ → ε → Prop}

theorem Kept.value_eq_none {rest : Program Call Reply ε α} {index : ℕ}
    (hkept : cell.Kept Initialiser monitor Shows idle post fail told)
    (hcaller : cell.callers[index]? = some (.running rest)) :
    cell.value = none := by
  cases hvalue : cell.value with
  | none => rfl
  | some value =>
      exact absurd (List.mem_of_getElem? hcaller)
        ((hkept.filled value hvalue).1.quiet rest)

/-- The caller of a position is the one which is put there, or the one which
was there before. -/
theorem getElem?_put {index position : ℕ} {caller other : Caller Call Reply ε α}
    (hplace : (cell.put index caller).callers[position]? = some other) :
    index = position ∧ caller = other ∨
      index ≠ position ∧ cell.callers[position]? = some other := by
  by_cases heq : index = position
  · subst heq
    obtain ⟨hlt, hget⟩ := List.getElem?_eq_some_iff.mp hplace
    left
    refine ⟨rfl, ?_⟩
    simpa [OnceCell.put] using hget
  · right
    refine ⟨heq, ?_⟩
    rw [OnceCell.put, List.getElem?_set_ne heq] at hplace
    exact hplace

/-- The caller of a position stops running, or never ran. -/
theorem Kept.alone_put {index : ℕ} {caller : Caller Call Reply ε α}
    (hkept : cell.Kept Initialiser monitor Shows idle post fail told)
    (hcaller : ∀ rest, caller ≠ .running rest) :
    ∀ (first second : ℕ) (rest other : Program Call Reply ε α),
      (cell.put index caller).callers[first]? = some (.running rest) →
      (cell.put index caller).callers[second]? = some (.running other) →
      first = second := by
  intro first second rest other hfirst hsecond
  rcases getElem?_put hfirst with ⟨_, heq⟩ | ⟨_, hfirst⟩
  · exact absurd heq (hcaller rest)
  · rcases getElem?_put hsecond with ⟨_, heq⟩ | ⟨_, hsecond⟩
    · exact absurd heq (hcaller other)
    · exact hkept.alone _ _ _ _ hfirst hsecond

/-- A caller which neither runs nor waits, nor got a value, takes the place of
another. -/
theorem Kept.put {index : ℕ} {caller : Caller Call Reply ε α}
    (hkept : cell.Kept Initialiser monitor Shows idle post fail told)
    (hrunning : ∀ rest, caller ≠ .running rest)
    (hwaiting : ∀ init, caller ≠ .waiting init)
    (hanswer : ∀ answer, caller = .answered (.ok answer) →
      cell.value = some answer)
    (hfailed : ∀ error, caller = .answered (.error error) →
      told cell.world index error) :
    (cell.put index caller).Kept Initialiser monitor Shows idle post fail
      told where
  shows := hkept.shows
  filled := by
    intro value hvalue
    obtain ⟨hsettled, hpost⟩ := hkept.filled value hvalue
    refine ⟨hsettled.put hrunning ?_, hpost⟩
    intro answer hcaller
    have heq := hanswer answer hcaller
    rw [hsettled.value_eq] at heq
    exact (Option.some.inj heq).symm
  empty := by
    intro hvalue answer hmem
    rcases mem_put hmem with heq | hmem
    · have hfilled := hanswer answer heq.symm
      rw [put_value] at hvalue
      rw [hvalue] at hfilled
      cases hfilled
    · exact hkept.empty hvalue answer hmem
  alone := hkept.alone_put hrunning
  running := by
    intro rest hmem
    rcases mem_put hmem with heq | hmem
    · exact absurd heq.symm (hrunning rest)
    · exact hkept.running rest hmem
  waiting := by
    intro init hmem
    rcases mem_put hmem with heq | hmem
    · exact absurd heq.symm (hwaiting init)
    · exact hkept.waiting init hmem
  failed := by
    intro position error hposition
    rcases getElem?_put hposition with ⟨rfl, heq⟩ | ⟨_, hposition⟩
    · exact hfailed error heq
    · exact hkept.failed position error hposition

/-- The one running caller goes on. -/
theorem Kept.put_running {index : ℕ} {rest : Program Call Reply ε α}
    {world : World} {stage : Stage}
    (hkept : cell.Kept Initialiser monitor Shows idle post fail told)
    (hvalue : cell.value = none)
    (honly : ∀ (position : ℕ) (other : Program Call Reply ε α),
      cell.callers[position]? = some (.running other) → index = position)
    (hrestart : ∀ stage, Shows world stage → Shows world idle)
    (hshows : Shows world stage)
    (hmeets : rest.Meets monitor post fail stage)
    (htold : ∀ position error, told cell.world position error →
      told world position error) :
    ({ cell.put index (.running rest) with world := world } :
      OnceCell Call Reply ε α World).Kept Initialiser monitor Shows idle
        post fail told := by
  have hplace : ∀ (position : ℕ) (other : Program Call Reply ε α),
      (cell.put index (.running rest)).callers[position]? =
        some (.running other) → index = position := by
    intro position other hother
    rcases getElem?_put hother with ⟨heq, _⟩ | ⟨_, hother⟩
    · exact heq
    · exact honly position other hother
  constructor
  case shows => exact hrestart stage hshows
  case filled =>
    intro value hfilled
    rw [put_value, hvalue] at hfilled
    cases hfilled
  case empty =>
    intro _ answer hmem
    rcases mem_put hmem with heq | hmem
    · cases heq
    · exact hkept.empty hvalue answer hmem
  case alone =>
    intro first second one other hfirst hsecond
    rw [← hplace first one hfirst, ← hplace second other hsecond]
  case running =>
    intro other hmem
    obtain ⟨position, hposition⟩ := List.mem_iff_getElem?.mp hmem
    rcases getElem?_put hposition with ⟨_, heq⟩ | ⟨hne, hother⟩
    · cases heq
      exact ⟨stage, hshows, hmeets⟩
    · exact absurd (honly position other hother) hne
  case waiting =>
    intro init hmem
    rcases mem_put hmem with heq | hmem
    · cases heq
    · exact hkept.waiting init hmem
  case failed =>
    intro position error hposition
    rcases getElem?_put hposition with ⟨_, heq⟩ | ⟨_, hposition⟩
    · cases heq
    · exact htold position error (hkept.failed position error hposition)

/-- Every step keeps the cell. -/
theorem Kept.step
    (hrule : CellRule env drift Initialiser monitor Shows idle post
      fail told)
    (hkept : cell.Kept Initialiser monitor Shows idle post fail told)
    (hstep : Step env drift Initialiser cell after) :
    after.Kept Initialiser monitor Shows idle post fail told := by
  cases hstep with
  | @come init hinit =>
      have hmem : ∀ caller,
          caller ∈ cell.callers ++ [Caller.waiting init] →
          caller = .waiting init ∨ caller ∈ cell.callers := by
        intro caller hcaller
        rcases List.mem_append.mp hcaller with hcaller | hcaller
        · exact Or.inr hcaller
        · exact Or.inl (List.mem_singleton.mp hcaller)
      have hold : ∀ (position : ℕ) (caller : Caller Call Reply ε α),
          caller ≠ .waiting init →
          (cell.callers ++ [Caller.waiting init])[position]? = some caller →
          cell.callers[position]? = some caller := by
        intro position caller hcaller hposition
        rcases lt_or_ge position cell.callers.length with hlt | hge
        · rwa [List.getElem?_append_left hlt] at hposition
        · rw [List.getElem?_append_right hge] at hposition
          have hlast := List.mem_of_getElem? hposition
          exact absurd (List.mem_singleton.mp hlast) hcaller
      constructor
      case shows => exact hkept.shows
      case filled =>
        intro value hvalue
        obtain ⟨hsettled, hpost⟩ := hkept.filled value hvalue
        have hcome : Step env drift Initialiser cell _ := .come hinit
        exact ⟨(hsettled.step hcome).1, hpost⟩
      case empty =>
        intro hvalue answer hanswer
        rcases hmem _ hanswer with heq | hanswer
        · cases heq
        · exact hkept.empty hvalue answer hanswer
      case alone =>
        intro first second rest other hfirst hsecond
        exact hkept.alone _ _ _ _ (hold _ _ (by simp) hfirst)
          (hold _ _ (by simp) hsecond)
      case running =>
        intro rest hrest
        rcases hmem _ hrest with heq | hrest
        · cases heq
        · exact hkept.running rest hrest
      case waiting =>
        intro other hother
        rcases hmem _ hother with heq | hother
        · cases heq
          exact hinit
        · exact hkept.waiting other hother
      case failed =>
        intro position error hposition
        exact hkept.failed position error (hold _ _ (by simp) hposition)
  | found hcaller hvalue =>
      refine hkept.put (by simp) (by simp) ?_ (by simp)
      intro answer hanswer
      cases hanswer
      exact hvalue
  | enter hcaller hvalue hquiet =>
      obtain ⟨stage, hshows, hmeets⟩ := hrule.enter _
        (hkept.waiting _ (List.mem_of_getElem? hcaller)) _ hkept.shows
      refine hkept.put_running hvalue ?_ (hrule.restart _) hshows hmeets
        fun _ _ htold => htold
      intro position other hother
      exact absurd (List.mem_of_getElem? hother) (hquiet other)
  | ask hcaller henv =>
      obtain ⟨stage, hshows, hmeets⟩ :=
        hkept.running _ (List.mem_of_getElem? hcaller)
      obtain ⟨hexpects, hafter⟩ :=
        hrule.shown _ _ _ _ _ hshows hmeets.1 henv
      refine hkept.put_running (hkept.value_eq_none hcaller) ?_
        (hrule.restart _) hafter (hmeets.2 _ hexpects)
        fun _ _ htold => hrule.toldAfter _ _ _ _ _ _ henv htold
      intro position other hother
      exact hkept.alone _ _ _ _ hcaller hother
  | @fill index value hcaller =>
      obtain ⟨stage, hshows, hpost⟩ :=
        hkept.running _ (List.mem_of_getElem? hcaller)
      have hvalue := hkept.value_eq_none hcaller
      have hquiet : (cell.put index (.answered (.ok value))).Quiet := by
        intro rest hmem
        obtain ⟨position, hposition⟩ := List.mem_iff_getElem?.mp hmem
        rcases getElem?_put hposition with ⟨_, heq⟩ | ⟨hne, hother⟩
        · cases heq
        · exact hne (hkept.alone _ _ _ _ hcaller hother)
      constructor
      case shows => exact hkept.shows
      case filled =>
        intro other hother
        cases hother
        refine ⟨⟨rfl, hquiet, ?_⟩, stage, hshows, hpost⟩
        intro answer hmem
        rcases mem_put hmem with heq | hmem
        · cases heq
          rfl
        · exact absurd hmem (hkept.empty hvalue answer)
      case empty => exact fun hnone => by cases hnone
      case alone => exact hkept.alone_put (by simp)
      case running =>
        intro rest hmem
        exact absurd hmem (hquiet rest)
      case waiting =>
        intro init hmem
        rcases mem_put hmem with heq | hmem
        · cases heq
        · exact hkept.waiting init hmem
      case failed =>
        intro position error hposition
        rcases getElem?_put hposition with ⟨_, heq⟩ | ⟨_, hposition⟩
        · cases heq
        · exact hkept.failed position error hposition
  | @fail index error hcaller =>
      obtain ⟨stage, hshows, hfail⟩ :=
        hkept.running _ (List.mem_of_getElem? hcaller)
      refine hkept.put (by simp) (by simp) (by simp) ?_
      rintro error ⟨_⟩
      exact hrule.telling _ stage index error hshows hfail
  | drop => exact hkept.put (by simp) (by simp) (by simp) (by simp)
  | pass hdrift =>
      constructor
      case shows => exact hrule.stable _ _ _ hdrift hkept.shows
      case filled =>
        intro value hvalue
        obtain ⟨hsettled, stage, hshows, hpost⟩ := hkept.filled value hvalue
        exact ⟨⟨hsettled.value_eq, hsettled.quiet, hsettled.agreed⟩, stage,
          hrule.stable _ _ _ hdrift hshows, hpost⟩
      case empty => exact hkept.empty
      case alone => exact hkept.alone
      case running =>
        intro rest hmem
        obtain ⟨stage, hshows, hmeets⟩ := hkept.running rest hmem
        exact ⟨stage, hrule.stable _ _ _ hdrift hshows, hmeets⟩
      case waiting => exact hkept.waiting
      case failed =>
        intro index error hcaller
        exact hrule.toldLater _ _ index error hdrift
          (hkept.failed index error hcaller)

theorem Kept.reaches
    (hrule : CellRule env drift Initialiser monitor Shows idle post
      fail told)
    (hkept : cell.Kept Initialiser monitor Shows idle post fail told)
    (hreaches : Reaches env drift Initialiser cell after) :
    after.Kept Initialiser monitor Shows idle post fail told := by
  induction hreaches with
  | refl => exact hkept
  | tail _ hstep ih => exact ih.step hrule hstep

/-- An empty cell nobody has called yet. -/
theorem Kept.start {world : World} (hshows : Shows world idle) :
    (⟨none, world, []⟩ : OnceCell Call Reply ε α World).Kept Initialiser
      monitor Shows idle post fail told := by
  constructor <;> simp [hshows]

/-- A cell in which no initialiser runs keeps to another rule from now on. -/
theorem Kept.resume {Stage' : Type} {monitor' : Monitor Call Reply Stage'}
    {Shows' : World → Stage' → Prop} {idle' : Stage'}
    {post' : α → Stage' → Prop} {fail' : ε → Stage' → Prop}
    {told' : World → ℕ → ε → Prop}
    (hkept : cell.Kept Initialiser monitor Shows idle post fail told)
    (hquiet : cell.Quiet) (hshows : Shows' cell.world idle')
    (hpost : ∀ value, cell.value = some value → post' value idle')
    (hfailed : ∀ index error,
      cell.callers[index]? = some (.answered (.error error)) →
      told' cell.world index error) :
    cell.Kept Initialiser monitor' Shows' idle' post' fail' told' where
  shows := hshows
  filled := fun value hvalue =>
    ⟨(hkept.filled value hvalue).1, idle', hshows, hpost value hvalue⟩
  empty := hkept.empty
  alone := hkept.alone
  running := fun rest hrest => absurd hrest (hquiet rest)
  waiting := hkept.waiting
  failed := hfailed

end

/-! ## Undisturbed initialisers -/

/-- The caller has its answer, and the cell its value. -/
def ended (cell : OnceCell Call Reply ε α World) (index : ℕ)
    (outcome : Outcome ε α) (world : World) :
    OnceCell Call Reply ε α World :=
  match outcome with
  | .returned value =>
      { cell.put index (.answered (.ok value)) with
        value := some value, world := world }
  | .failed error =>
      { cell.put index (.answered (.error error)) with world := world }
  | .crashed => { cell.put index .dropped with world := world }

/-- An initialiser which nothing disturbs ends as the program does. -/
theorem reaches_of_runs {program : Program Call Reply ε α}
    {outcome : Outcome ε α} {last : World} {index : ℕ}
    (hcaller : cell.callers[index]? = some (.running program))
    (hruns : program.Runs env cell.world outcome last) :
    Reaches env drift Initialiser cell (cell.ended index outcome last) := by
  induction program generalizing cell with
  | pure value =>
      cases hruns with
      | crash => exact .single .drop
      | pure => exact .single (.fill hcaller)
  | throw error =>
      cases hruns with
      | crash => exact .single .drop
      | throw => exact .single (.fail hcaller)
  | call request rest ih =>
      cases hruns with
      | crash => exact .single .drop
      | @call _ _ reply _ after _ _ henv hrest =>
          obtain ⟨hlt, _⟩ := List.getElem?_eq_some_iff.mp hcaller
          have hnext : Reaches env drift Initialiser
              { cell.put index (.running (rest reply)) with world := after }
              (({ cell.put index (.running (rest reply)) with
                world := after } : OnceCell Call Reply ε α World).ended index
                outcome last) :=
            ih reply (List.getElem?_set_self hlt) hrest
          refine .head (.ask hcaller henv) ?_
          cases outcome <;> simpa [ended, OnceCell.put, Reaches] using hnext
  | outOfFuel =>
      cases hruns
      exact .single .drop

theorem Quiet.ended {index : ℕ} {outcome : Outcome ε α} {world : World}
    (hquiet : cell.Quiet) (rest : Program Call Reply ε α) :
    ((cell.put index (.running rest)).ended index outcome world).Quiet := by
  have hput : ∀ caller : Caller Call Reply ε α,
      (∀ rest, caller ≠ .running rest) →
      ((cell.put index (.running rest)).put index caller).Quiet := by
    intro caller hcaller
    rw [OnceCell.put, OnceCell.put, List.set_set]
    exact hquiet.put hcaller
  cases outcome with
  | returned value => exact hput _ (by simp)
  | failed error => exact hput _ (by simp)
  | crashed => exact hput _ (by simp)

end OnceCell

end HoprStrategy.Library
