import HoprStrategy.Library.EffectProgram

/-!
# Monitors of programs

A monitor watches the calls of a program from a stage of its own.  It says
which calls the stage allows, which replies are to be expected, and what the
stage is afterwards.  `Meets` is the rule of a program under a monitor: it is
`Obeys` without the promise of enough fuel, so that a loop is watched without
knowing how often it turns.

Where a world shows the stages of a monitor, every run in it is watched.
-/

namespace HoprStrategy.Library

structure Monitor (Call : Type) (Reply : Call → Type) (Stage : Type) where
  allows : Stage → Call → Prop
  expects : Stage → (request : Call) → Reply request → Prop
  next : Stage → (request : Call) → Reply request → Stage

namespace Program

variable {Call : Type} {Reply : Call → Type} {ε α β World Stage : Type}

/-- Every call is allowed, and the results satisfy `post` or `fail`. -/
def Meets (monitor : Monitor Call Reply Stage) (post : α → Stage → Prop)
    (fail : ε → Stage → Prop) : Program Call Reply ε α → Stage → Prop
  | .pure value, stage => post value stage
  | .throw error, stage => fail error stage
  | .call request rest, stage =>
      monitor.allows stage request ∧
        ∀ reply, monitor.expects stage request reply →
          Meets monitor post fail (rest reply)
            (monitor.next stage request reply)
  | .outOfFuel, _ => True

variable {monitor : Monitor Call Reply Stage} {post : α → Stage → Prop}
  {fail : ε → Stage → Prop} {stage : Stage}

theorem meets_call {request : Call}
    {rest : Reply request → Program Call Reply ε α}
    (hallows : monitor.allows stage request)
    (hrest : ∀ reply, monitor.expects stage request reply →
      (rest reply).Meets monitor post fail
        (monitor.next stage request reply)) :
    (Program.call request rest).Meets monitor post fail stage :=
  ⟨hallows, hrest⟩

theorem meets_require {condition : Prop} [Decidable condition] {error : ε}
    {post : Unit → Stage → Prop} (hpost : condition → post () stage)
    (hfail : ¬ condition → fail error stage) :
    (Program.require condition error : Program Call Reply ε Unit).Meets
      monitor post fail stage := by
  unfold require
  split
  · exact hpost ‹_›
  · exact hfail ‹_›

theorem meets_raise {E : Type} {toError : E → ε} {result : Except E α}
    (hpost : ∀ value, result = .ok value → post value stage)
    (hfail : ∀ error, result = .error error → fail (toError error) stage) :
    (Program.raise toError result : Program Call Reply ε α).Meets monitor
      post fail stage := by
  cases result with
  | ok value => exact hpost value rfl
  | error error => exact hfail error rfl

theorem Meets.mono {program : Program Call Reply ε α}
    {weaker : α → Stage → Prop} {weakerFail : ε → Stage → Prop}
    (hmeets : program.Meets monitor post fail stage)
    (hpost : ∀ value after, post value after → weaker value after)
    (hfail : ∀ error after, fail error after → weakerFail error after) :
    program.Meets monitor weaker weakerFail stage := by
  induction program generalizing stage with
  | pure value => exact hpost value stage hmeets
  | throw error => exact hfail error stage hmeets
  | call request rest ih =>
      exact ⟨hmeets.1, fun reply hexpects =>
        ih reply (hmeets.2 reply hexpects)⟩
  | outOfFuel => trivial

theorem Meets.bind {program : Program Call Reply ε α}
    {next : α → Program Call Reply ε β} {last : β → Stage → Prop}
    (hmeets : program.Meets monitor
      (fun value after => (next value).Meets monitor last fail after)
      fail stage) :
    (program.bind next).Meets monitor last fail stage := by
  induction program generalizing stage with
  | pure value => exact hmeets
  | throw error => exact hmeets
  | call request rest ih =>
      exact ⟨hmeets.1, fun reply hexpects =>
        ih reply (hmeets.2 reply hexpects)⟩
  | outOfFuel => trivial

theorem meets_mapError {rewrite : ε → ε} {program : Program Call Reply ε α}
    (hmeets : program.Meets monitor post
      (fun error after => fail (rewrite error) after) stage) :
    (program.mapError rewrite).Meets monitor post fail stage := by
  induction program generalizing stage with
  | pure value => exact hmeets
  | throw error => exact hmeets
  | call request rest ih =>
      exact ⟨hmeets.1, fun reply hexpects =>
        ih reply (hmeets.2 reply hexpects)⟩
  | outOfFuel => trivial

/-- A world shows a stage of the monitor: what happens in it is expected, and
moves the stage as the monitor says. -/
def Shown (env : Environment Call Reply World)
    (monitor : Monitor Call Reply Stage) (Shows : World → Stage → Prop) :
    Prop :=
  ∀ world stage request reply after, Shows world stage →
    monitor.allows stage request → env world request reply after →
    monitor.expects stage request reply ∧
      Shows after (monitor.next stage request reply)

/-- Wherever a run ends, the world shows a stage, and the outcome satisfies
its postcondition there. -/
theorem Runs.monitored {env : Environment Call Reply World}
    {program : Program Call Reply ε α} {outcome : Outcome ε α}
    {world last : World} {Shows : World → Stage → Prop}
    (hruns : Runs env program world outcome last)
    (hshown : Shown env monitor Shows) (hshows : Shows world stage)
    (hmeets : program.Meets monitor post fail stage) :
    ∃ ended, Shows last ended ∧ outcome.Satisfies post fail ended := by
  induction hruns generalizing stage with
  | crash program world => exact ⟨stage, hshows, trivial⟩
  | pure value world => exact ⟨stage, hshows, hmeets⟩
  | throw error world => exact ⟨stage, hshows, hmeets⟩
  | call henv _ ih =>
      obtain ⟨hexpects, hafter⟩ := hshown _ _ _ _ _ hshows hmeets.1 henv
      exact ih hafter (hmeets.2 _ hexpects)

/-! ## Failed runs -/

/-- A sequence fails in its first part, or in its second one. -/
theorem Runs.failed_bind {env : Environment Call Reply World}
    {program : Program Call Reply ε α} {next : α → Program Call Reply ε β}
    {error : ε} {world last : World}
    (hruns : Runs env (program.bind next) world (.failed error) last) :
    Runs env program world (.failed error) last ∨
      ∃ value middle, Runs env program world (.returned value) middle ∧
        Runs env (next value) middle (.failed error) last := by
  induction program generalizing world with
  | pure value => exact Or.inr ⟨value, world, .pure value world, hruns⟩
  | throw error =>
      cases hruns
      exact Or.inl (.throw _ _)
  | call request rest ih =>
      cases hruns with
      | call henv hrest =>
          rcases ih _ hrest with hfirst | ⟨value, middle, hfirst, hsecond⟩
          · exact Or.inl (.call henv hfirst)
          · exact Or.inr ⟨value, middle, .call henv hfirst, hsecond⟩
  | outOfFuel => cases hruns

theorem Runs.failed_mapError {env : Environment Call Reply World}
    {program : Program Call Reply ε α} {rewrite : ε → ε} {error : ε}
    {world last : World}
    (hruns : Runs env (program.mapError rewrite) world (.failed error) last) :
    ∃ original, error = rewrite original ∧
      Runs env program world (.failed original) last := by
  induction program generalizing world with
  | pure value => cases hruns
  | throw original =>
      cases hruns
      exact ⟨original, rfl, .throw _ _⟩
  | call request rest ih =>
      cases hruns with
      | call henv hrest =>
          obtain ⟨original, herror, horiginal⟩ := ih _ hrest
          exact ⟨original, herror, .call henv horiginal⟩
  | outOfFuel => cases hruns

/-- A run among fewer replies is a run among more. -/
theorem Runs.mono {env wider : Environment Call Reply World}
    {program : Program Call Reply ε α} {outcome : Outcome ε α}
    {world last : World} (hruns : Runs env program world outcome last)
    (henv : ∀ world request reply after, env world request reply after →
      wider world request reply after) :
    Runs wider program world outcome last := by
  induction hruns with
  | crash program world => exact .crash program world
  | pure value world => exact .pure value world
  | throw error world => exact .throw error world
  | call hstep _ ih => exact .call (henv _ _ _ _ hstep) ih

end Program

end HoprStrategy.Library
