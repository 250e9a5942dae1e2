import HoprStrategy.Library.OnceCell

/-!
# What a program asked for its result

A trace of a program is the list of its calls with their replies, down to the
result which they lead to.  The trace of a sequence is the trace of its first
part and then the one of its second part, so what a result rests on is found
by going through the program once, whoever replied.

A world which logs every call shows the trace of a running initialiser as the
last entries of its log.  The value of a once cell then is what one
initialiser made of the last entries, and whoever was told of an error was
told so by an initialiser whose entries stand in the log without a break.
-/

namespace HoprStrategy.Library

/-- A call and its reply. -/
structure CallEntry (Call : Type) (Reply : Call → Type) where
  request : Call
  reply : Reply request

/-- A program which is not cut short ends with its result. -/
def Outcome.ofResult {ε α : Type} : Except ε α → Outcome ε α
  | .ok value => .returned value
  | .error error => .failed error

namespace Program

variable {Call : Type} {Reply : Call → Type} {ε α β World : Type}

/-- The program comes to the result when it is replied as the entries say. -/
inductive Traces : Program Call Reply ε α → List (CallEntry Call Reply) →
    Except ε α → Prop
  | pure (value : α) : Traces (.pure value) [] (.ok value)
  | throw (error : ε) : Traces (.throw error) [] (.error error)
  | call {request : Call} {rest : Reply request → Program Call Reply ε α}
      {reply : Reply request} {entries : List (CallEntry Call Reply)}
      {result : Except ε α} (hrest : (rest reply).Traces entries result) :
      Traces (.call request rest) (⟨request, reply⟩ :: entries) result

variable {entries : List (CallEntry Call Reply)}
  {program : Program Call Reply ε α}

theorem Traces.of_bind {next : α → Program Call Reply ε β}
    {result : Except ε β}
    (htraces : (program.bind next).Traces entries result) :
    (∃ first second value, entries = first ++ second ∧
      program.Traces first (.ok value) ∧
      (next value).Traces second result) ∨
    ∃ error, result = .error error ∧
      program.Traces entries (.error error) := by
  induction program generalizing entries with
  | pure value => exact Or.inl ⟨[], entries, value, rfl, .pure value, htraces⟩
  | throw error =>
      cases htraces
      exact Or.inr ⟨error, rfl, .throw error⟩
  | call request rest ih =>
      cases htraces with
      | call hrest =>
          rcases ih _ hrest with
            ⟨first, second, value, rfl, hfirst, hsecond⟩ |
              ⟨error, rfl, hfailed⟩
          · exact Or.inl ⟨_ :: first, second, value, rfl, .call hfirst,
              hsecond⟩
          · exact Or.inr ⟨error, rfl, .call hfailed⟩
  | outOfFuel => cases htraces

/-- A sequence which comes to a value does so part by part. -/
theorem Traces.of_bind_ok {next : α → Program Call Reply ε β} {value : β}
    (htraces : (program.bind next).Traces entries (.ok value)) :
    ∃ first second middle, entries = first ++ second ∧
      program.Traces first (.ok middle) ∧
      (next middle).Traces second (.ok value) := by
  rcases htraces.of_bind with h | ⟨error, herror, _⟩
  · exact h
  · cases herror

theorem Traces.of_pure {value : α} {result : Except ε α}
    (htraces : (Program.pure value).Traces entries result) :
    entries = [] ∧ result = .ok value := by
  cases htraces
  exact ⟨rfl, rfl⟩

theorem Traces.of_raise {E : Type} {toError : E → ε} {source : Except E α}
    {result : Except ε α}
    (htraces : (Program.raise toError source).Traces entries result) :
    entries = [] ∧ result = source.mapError toError := by
  cases source <;> cases htraces <;> exact ⟨rfl, rfl⟩

theorem Traces.of_raise_ok {E : Type} {toError : E → ε}
    {source : Except E α} {value : α}
    (htraces : (Program.raise toError source).Traces entries (.ok value)) :
    entries = [] ∧ source = .ok value := by
  obtain ⟨hentries, hvalue⟩ := htraces.of_raise
  cases source <;> cases hvalue
  exact ⟨hentries, rfl⟩

/-- A call which is answered at once, with a value or an error. -/
theorem Traces.of_ask {request : Call} {result : Except ε α}
    {answer : Reply request → Program Call Reply ε α}
    (htraces : (Program.call request answer).Traces entries result) :
    ∃ reply rest, entries = ⟨request, reply⟩ :: rest ∧
      (answer reply).Traces rest result := by
  cases htraces with
  | call hrest => exact ⟨_, _, rfl, hrest⟩

/-- A request whose reply is the value, or an error of another kind. -/
theorem Traces.of_request {E : Type} {request : Call} {toError : E → ε}
    {answer : Reply request → Except E α} {value : α}
    (htraces : (Program.call request fun reply =>
      Program.raise toError (answer reply)).Traces entries (.ok value)) :
    ∃ reply, entries = [⟨request, reply⟩] ∧ answer reply = .ok value := by
  obtain ⟨reply, rest, rfl, hrest⟩ := htraces.of_ask
  obtain ⟨rfl, hvalue⟩ := hrest.of_raise_ok
  exact ⟨reply, rfl, hvalue⟩

/-- The environment gives the replies one after the other. -/
def Replied (env : Environment Call Reply World) :
    World → List (CallEntry Call Reply) → World → Prop
  | world, [], last => world = last
  | world, ⟨request, reply⟩ :: entries, last =>
      ∃ after, env world request reply after ∧ Replied env after entries last

theorem Traces.runs {env : Environment Call Reply World} {world last : World}
    {result : Except ε α} (htraces : program.Traces entries result)
    (hreplied : Replied env world entries last) :
    program.Runs env world (.ofResult result) last := by
  induction htraces generalizing world with
  | pure value =>
      cases hreplied
      exact .pure value _
  | throw error =>
      cases hreplied
      exact .throw error _
  | call _ ih =>
      obtain ⟨after, henv, hrest⟩ := hreplied
      exact .call henv (ih hrest)

/-! ## What a program asks for at all -/

/-- The program asks for nothing else, and fails in no other way. -/
def Only (asks : Call → Prop) (fails : ε → Prop) :
    Program Call Reply ε α → Prop
  | .pure _ => True
  | .throw error => fails error
  | .call request rest => asks request ∧ ∀ reply, (rest reply).Only asks fails
  | .outOfFuel => True

variable {asks : Call → Prop} {fails : ε → Prop}

theorem Only.bind {next : α → Program Call Reply ε β}
    (honly : program.Only asks fails)
    (hnext : ∀ value, (next value).Only asks fails) :
    (program.bind next).Only asks fails := by
  induction program with
  | pure value => exact hnext value
  | throw error => exact honly
  | call request rest ih =>
      exact ⟨honly.1, fun reply => ih reply (honly.2 reply)⟩
  | outOfFuel => trivial

theorem Only.mono {weaker : ε → Prop} (honly : program.Only asks fails)
    (hfails : ∀ error, fails error → weaker error) :
    program.Only asks weaker := by
  induction program with
  | pure value => trivial
  | throw error => exact hfails error honly
  | call request rest ih =>
      exact ⟨honly.1, fun reply => ih reply (honly.2 reply)⟩
  | outOfFuel => trivial

theorem only_raise {E : Type} {toError : E → ε} {source : Except E α}
    (hfails : ∀ error, fails (toError error)) :
    (Program.raise toError source : Program Call Reply ε α).Only asks
      fails := by
  cases source with
  | ok value => trivial
  | error error => exact hfails error

theorem Traces.only {result : Except ε α}
    (htraces : program.Traces entries result)
    (honly : program.Only asks fails) :
    (∀ entry ∈ entries, asks entry.request) ∧
      ∀ error, result = .error error → fails error := by
  induction htraces with
  | pure value => exact ⟨by simp, by simp⟩
  | throw error =>
      refine ⟨by simp, ?_⟩
      rintro _ ⟨_⟩
      exact honly
  | call _ ih =>
      obtain ⟨hasks, herror⟩ := ih (honly.2 _)
      exact ⟨List.forall_mem_cons.mpr ⟨honly.1, hasks⟩, herror⟩

/-! ## The recorder -/

/-- Writes down the calls which may be asked. -/
def recorder (asks : Call → Prop) :
    Monitor Call Reply (List (CallEntry Call Reply)) where
  allows := fun _ => asks
  expects := fun _ _ _ => True
  next := fun entries request reply => entries ++ [⟨request, reply⟩]

/-- A program which goes on from `entries` ends in what they and its own
calls lead to. -/
theorem meets_recorder {post : α → List (CallEntry Call Reply) → Prop}
    {fail : ε → List (CallEntry Call Reply) → Prop}
    (honly : program.Only asks fun _ => True)
    (hpost : ∀ more value, program.Traces more (.ok value) →
      post value (entries ++ more))
    (hfail : ∀ more error, program.Traces more (.error error) →
      fail error (entries ++ more)) :
    program.Meets (recorder asks) post fail entries := by
  induction program generalizing entries with
  | pure value =>
      have hend := hpost [] value (.pure value)
      rw [List.append_nil] at hend
      exact hend
  | throw error =>
      have hend := hfail [] error (.throw error)
      rw [List.append_nil] at hend
      exact hend
  | call request rest ih =>
      refine ⟨honly.1, fun reply _ => ih reply (honly.2 reply) ?_ ?_⟩
      · intro more value htraces
        simpa [recorder] using hpost _ value (.call htraces)
      · intro more error htraces
        simpa [recorder] using hfail _ error (.call htraces)
  | outOfFuel => trivial

end Program

/-! ## Cells over a world which logs its calls -/

namespace OnceCell

variable {Call : Type} {Reply : Call → Type} {ε α World : Type}

/-- Every call is logged, and nothing else is. -/
structure Logs (env : Environment Call Reply World)
    (drift : World → World → Prop)
    (log : World → List (CallEntry Call Reply)) : Prop where
  ask : ∀ world request reply after, env world request reply after →
    log after = log world ++ [⟨request, reply⟩]
  pass : ∀ world after, drift world after → log after = log world

/-- What a cell holds, and what its callers were told, rests on the log.  Only
what the initialisers ask for was added to it. -/
structure Traced (Initialiser : Program Call Reply ε α → Prop)
    (asks : Call → Prop) (log : World → List (CallEntry Call Reply))
    (start : World) (cell : OnceCell Call Reply ε α World) : Prop where
  filled : ∀ value, cell.value = some value → cell.Settled value ∧
    ∃ init entries, Initialiser init ∧ entries <:+ log cell.world ∧
      init.Traces entries (.ok value)
  empty : cell.value = none →
    ∀ answer, Caller.answered (.ok answer) ∉ cell.callers
  failed : ∀ error, Caller.answered (.error error) ∈ cell.callers →
    ∃ init entries, Initialiser init ∧ entries <:+: log cell.world ∧
      init.Traces entries (.error error)
  alone : ∀ (first second : ℕ) (rest other : Program Call Reply ε α),
    cell.callers[first]? = some (.running rest) →
    cell.callers[second]? = some (.running other) → first = second
  asked : ∀ entry ∈ log cell.world, entry ∈ log start ∨ asks entry.request

variable {env : Environment Call Reply World} {drift : World → World → Prop}
  {Initialiser : Program Call Reply ε α → Prop} {asks : Call → Prop}
  {log : World → List (CallEntry Call Reply)} {start : World}
  {cell : OnceCell Call Reply ε α World}

/-- What the entries of an initialiser led to. -/
def Led (Initialiser : Program Call Reply ε α → Prop)
    (result : Except ε α) (entries : List (CallEntry Call Reply)) : Prop :=
  ∃ init, Initialiser init ∧ init.Traces entries result

/-- The entries are the last ones since the start, and whatever was added may
be asked. -/
def Recorded (asks : Call → Prop) (log : World → List (CallEntry Call Reply))
    (start world : World) (entries : List (CallEntry Call Reply)) : Prop :=
  ∃ before, log world = log start ++ (before ++ entries) ∧
    ∀ entry ∈ before ++ entries, asks entry.request

/-- An initialiser failed so on entries which were logged since the start. -/
def FailedSince (Initialiser : Program Call Reply ε α → Prop)
    (log : World → List (CallEntry Call Reply)) (start world : World)
    (error : ε) : Prop :=
  ∃ since entries, log world = log start ++ since ∧ entries <:+: since ∧
    Led Initialiser (.error error) entries

theorem Recorded.suffix {world : World}
    {entries : List (CallEntry Call Reply)}
    (hrecorded : Recorded asks log start world entries) :
    entries <:+ log world := by
  obtain ⟨before, hlog, _⟩ := hrecorded
  exact ⟨log start ++ before, by rw [hlog, List.append_assoc]⟩

theorem FailedSince.later {world after : World} {error : ε}
    {more : List (CallEntry Call Reply)}
    (hfailed : FailedSince Initialiser log start world error)
    (hlog : log after = log world ++ more) :
    FailedSince Initialiser log start after error := by
  obtain ⟨since, entries, hsince, hwithin, hled⟩ := hfailed
  refine ⟨since ++ more, entries, ?_,
    hwithin.trans (List.prefix_append _ _).isInfix, hled⟩
  rw [hlog, hsince, List.append_assoc]

theorem tracedRule {post : α → List (CallEntry Call Reply) → Prop}
    {excused : ℕ → ε → Prop} (hlogs : Logs env drift log)
    (honly : ∀ init, Initialiser init → init.Only asks fun _ => True)
    (hpost : ∀ value entries, Led Initialiser (.ok value) entries →
      post value entries) :
    CellRule env drift Initialiser (Program.recorder asks)
      (Recorded asks log start) [] post
      (fun error => Led Initialiser (.error error))
      (fun world index error => excused index error ∨
        FailedSince Initialiser log start world error) where
  shown := by
    rintro world entries request reply after ⟨before, hlog, hadded⟩ hallows
      henv
    refine ⟨trivial, before, ?_, ?_⟩
    · rw [hlogs.ask _ _ _ _ henv, hlog]
      simp [Program.recorder]
    · intro entry hentry
      rw [Program.recorder, ← List.append_assoc] at hentry
      rcases List.mem_append.mp hentry with hentry | hentry
      · exact hadded entry hentry
      · rw [List.mem_singleton.mp hentry]
        exact hallows
  enter := by
    rintro init hinit world ⟨before, hlog, hadded⟩
    refine ⟨[], ⟨before, hlog, hadded⟩,
      Program.meets_recorder (honly init hinit) ?_ ?_⟩
    · exact fun more value htraces => hpost _ _ ⟨init, hinit, htraces⟩
    · exact fun more error htraces => ⟨init, hinit, htraces⟩
  restart := by
    rintro world entries ⟨before, hlog, hadded⟩
    exact ⟨before ++ entries, by simpa using hlog, by simpa using hadded⟩
  stable := by
    intro world after entries hdrift hshows
    rw [Recorded, hlogs.pass world after hdrift]
    exact hshows
  telling := by
    rintro world entries index error ⟨before, hlog, _⟩ hled
    exact Or.inr ⟨before ++ entries, entries, hlog,
      (List.suffix_append _ _).isInfix, hled⟩
  toldAfter := fun world request reply after index error henv htold =>
    htold.imp_right fun hfailed => hfailed.later (hlogs.ask _ _ _ _ henv)
  toldLater := by
    intro world after index error hdrift htold
    have hlog : log after = log world ++ [] := by
      rw [hlogs.pass world after hdrift, List.append_nil]
    exact htold.imp_right fun hfailed => hfailed.later hlog

/-- What holds of a cell which nobody had called at the start. -/
theorem kept_recorded (hlogs : Logs env drift log)
    (honly : ∀ init, Initialiser init → init.Only asks fun _ => True)
    (hreaches : Reaches env drift Initialiser ⟨none, start, []⟩ cell) :
    cell.Kept Initialiser (Program.recorder asks) (Recorded asks log start) []
      (fun value => Led Initialiser (.ok value))
      (fun error => Led Initialiser (.error error))
      (fun world _ error => False ∨
        FailedSince Initialiser log start world error) :=
  Kept.reaches (tracedRule hlogs honly fun _ _ hled => hled)
    (.start ⟨[], by simp, by simp⟩) hreaches

/-- Every cell which a run leads to rests on the log. -/
theorem traced (hlogs : Logs env drift log)
    (honly : ∀ init, Initialiser init → init.Only asks fun _ => True)
    (hreaches : Reaches env drift Initialiser ⟨none, start, []⟩ cell) :
    cell.Traced Initialiser asks log start := by
  have hkept := kept_recorded hlogs honly hreaches
  constructor
  case filled =>
    intro value hvalue
    obtain ⟨hsettled, entries, hrecorded, init, hinit, htraces⟩ :=
      hkept.filled value hvalue
    exact ⟨hsettled, init, entries, hinit, hrecorded.suffix, htraces⟩
  case empty => exact hkept.empty
  case failed =>
    intro error herror
    obtain ⟨index, hcaller⟩ := List.mem_iff_getElem?.mp herror
    rcases hkept.failed index error hcaller with hnone |
      ⟨since, entries, hlog, hwithin, init, hinit, htraces⟩
    · exact absurd hnone not_false
    · rw [hlog]
      exact ⟨init, entries, hinit,
        hwithin.trans (List.suffix_append _ _).isInfix, htraces⟩
  case alone => exact hkept.alone
  case asked =>
    intro entry hentry
    obtain ⟨before, hlog, hadded⟩ := hkept.shows
    rw [hlog] at hentry
    exact (List.mem_append.mp hentry).imp_right (hadded entry)

/-- While no initialiser runs, whoever is told of an error later on is told so
by an initialiser which asked everything later on. -/
theorem failed_since {later : OnceCell Call Reply ε α World} {index : ℕ}
    {error : ε} (hlogs : Logs env drift log)
    (honly : ∀ init, Initialiser init → init.Only asks fun _ => True)
    (hreaches : Reaches env drift Initialiser ⟨none, start, []⟩ cell)
    (hquiet : cell.Quiet) (hlater : Reaches env drift Initialiser cell later)
    (hcaller : later.callers[index]? = some (.answered (.error error))) :
    cell.callers[index]? = some (.answered (.error error)) ∨
      FailedSince Initialiser log cell.world later.world error := by
  have hkept : cell.Kept Initialiser (Program.recorder asks)
      (Recorded asks log cell.world) [] (fun _ _ => True)
      (fun error => Led Initialiser (.error error))
      (fun world index error =>
        cell.callers[index]? = some (.answered (.error error)) ∨
          FailedSince Initialiser log cell.world world error) :=
    (kept_recorded hlogs honly hreaches).resume hquiet
      ⟨[], by simp, by simp⟩ (fun _ _ => trivial)
      (fun _ _ herror => Or.inl herror)
  exact (hkept.reaches (tracedRule hlogs honly fun _ _ _ => trivial)
    hlater).failed index error hcaller

theorem Logs.passes {world after : World} (hlogs : Logs env drift log)
    (hdrift : Relation.ReflTransGen drift world after) :
    log after = log world := by
  induction hdrift with
  | refl => rfl
  | tail _ hlast ih => exact (hlogs.pass _ _ hlast).trans ih

/-- Nothing is logged once a cell has its value. -/
theorem Logs.reaches {value : α} {later : OnceCell Call Reply ε α World}
    (hlogs : Logs env drift log) (hsettled : cell.Settled value)
    (hreaches : Reaches env drift Initialiser cell later) :
    later.Settled value ∧ log later.world = log cell.world := by
  obtain ⟨hlater, hdrift⟩ := hsettled.reaches hreaches
  exact ⟨hlater, hlogs.passes hdrift⟩

/-! ## Undisturbed callers -/

/-- A caller came and was answered. -/
def answered (cell : OnceCell Call Reply ε α World) (result : Except ε α)
    (last : World) : OnceCell Call Reply ε α World where
  value := match result with
    | .ok value => some value
    | .error _ => cell.value
  world := last
  callers := cell.callers ++ [.answered result]

theorem Quiet.append {caller : Caller Call Reply ε α} (hquiet : cell.Quiet)
    (hcaller : ∀ rest, caller ≠ .running rest) :
    ∀ rest, Caller.running rest ∉ cell.callers ++ [caller] := by
  intro rest hmem
  rcases List.mem_append.mp hmem with hmem | hmem
  · exact hquiet rest hmem
  · exact hcaller rest (List.mem_singleton.mp hmem).symm

theorem Quiet.answered {result : Except ε α} {last : World}
    (hquiet : cell.Quiet) : (cell.answered result last).Quiet :=
  hquiet.append (by simp)

/-- A caller came, and waits. -/
def called (cell : OnceCell Call Reply ε α World)
    (init : Program Call Reply ε α) : OnceCell Call Reply ε α World :=
  { cell with callers := cell.callers ++ [.waiting init] }

theorem Quiet.called {init : Program Call Reply ε α} (hquiet : cell.Quiet) :
    (cell.called init).Quiet :=
  hquiet.append (by simp)

/-- A caller which nothing disturbs is answered as the replies lead to. -/
theorem reaches_answered {init : Program Call Reply ε α}
    {entries : List (CallEntry Call Reply)} {result : Except ε α}
    {last : World} (hinit : Initialiser init) (hvalue : cell.value = none)
    (hquiet : cell.Quiet) (htraces : init.Traces entries result)
    (hreplied : Program.Replied env cell.world entries last) :
    Reaches env drift Initialiser cell (cell.answered result last) := by
  let running := (cell.called init).put cell.callers.length (.running init)
  have hended : Reaches env drift Initialiser running
      (running.ended cell.callers.length (.ofResult result) last) :=
    reaches_of_runs (by simp [running, called, OnceCell.put])
      (htraces.runs hreplied)
  have heq : running.ended cell.callers.length (.ofResult result) last =
      cell.answered result last := by
    cases result <;>
      simp [running, OnceCell.answered, ended, called, OnceCell.put,
        Outcome.ofResult]
  rw [heq] at hended
  have hwaits : (cell.called init).callers[cell.callers.length]? =
      some (.waiting init) := by simp [called]
  exact .head (.come hinit) (.head (.enter hwaits hvalue hquiet.called) hended)

end OnceCell

end HoprStrategy.Library
