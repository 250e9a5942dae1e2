import Mathlib.Logic.Basic

/-!
# Programs which call their environment

A program is the tree of its calls: after each call it goes on with whatever
the environment replied.  A run may end at any point of the tree, which is how
a crash is modelled; a program which does not come to an end within the fuel
of its loops is `outOfFuel`.

`Obeys` is the rule of a program: every call is made in a world where the
guard allows it, and the results satisfy their postconditions.  Loops obey
only when they have enough fuel.  A property which guarded calls preserve
holds in every world a run passes through, so the programs are traversed once
and every invariant is then a statement about single calls.
-/

namespace HoprStrategy.Library

/-- A program over calls `Call`, failing with an `ε` or returning an `α`. -/
inductive Program (Call : Type) (Reply : Call → Type) (ε α : Type) where
  | pure (value : α)
  | throw (error : ε)
  | call (request : Call) (rest : Reply request → Program Call Reply ε α)
  | outOfFuel

/-- How a run ended. -/
inductive Outcome (ε α : Type) where
  | returned (value : α)
  | failed (error : ε)
  | crashed
  deriving DecidableEq

def Outcome.Satisfies {ε α World : Type} (post : α → World → Prop)
    (fail : ε → World → Prop) : Outcome ε α → World → Prop
  | .returned value => post value
  | .failed error => fail error
  | .crashed => fun _ => True

/-- What the environment may do when it is called. -/
def Environment (Call : Type) (Reply : Call → Type) (World : Type) : Type :=
  World → (request : Call) → Reply request → World → Prop

namespace Program

variable {Call : Type} {Reply : Call → Type} {ε α β World Fine : Type}

def bind : Program Call Reply ε α → (α → Program Call Reply ε β) →
    Program Call Reply ε β
  | .pure value, next => next value
  | .throw error, _ => .throw error
  | .call request rest, next =>
      .call request fun reply => (rest reply).bind next
  | .outOfFuel, _ => .outOfFuel

instance : Monad (Program Call Reply ε) where
  pure := .pure
  bind := .bind

/-- The program with every error rewritten. -/
def mapError (rewrite : ε → ε) : Program Call Reply ε α →
    Program Call Reply ε α
  | .pure value => .pure value
  | .throw error => .throw (rewrite error)
  | .call request rest => .call request fun reply =>
      (rest reply).mapError rewrite
  | .outOfFuel => .outOfFuel

/-- A pure result, which may be an error of another kind. -/
def raise {E : Type} (toError : E → ε) :
    Except E α → Program Call Reply ε α
  | .ok value => .pure value
  | .error error => .throw (toError error)

def require (condition : Prop) [Decidable condition] (error : ε) :
    Program Call Reply ε Unit :=
  if condition then .pure () else .throw error

/-- The runs of a program, complete or cut short. -/
inductive Runs (env : Environment Call Reply World) :
    Program Call Reply ε α → World → Outcome ε α → World → Prop
  | crash (program : Program Call Reply ε α) (world : World) :
      Runs env program world .crashed world
  | pure (value : α) (world : World) :
      Runs env (.pure value) world (.returned value) world
  | throw (error : ε) (world : World) :
      Runs env (.throw error) world (.failed error) world
  | call {request : Call} {rest : Reply request → Program Call Reply ε α}
      {reply : Reply request} {world after last : World}
      {outcome : Outcome ε α}
      (henv : env world request reply after)
      (hrest : Runs env (rest reply) after outcome last) :
      Runs env (.call request rest) world outcome last

/-- Every call is guarded, and the results satisfy `post` or `fail`. -/
def Obeys (env : Environment Call Reply World)
    (guard : World → Call → Prop) (post : α → World → Prop)
    (fail : ε → World → Prop) : Program Call Reply ε α → World → Prop
  | .pure value, world => post value world
  | .throw error, world => fail error world
  | .call request rest, world =>
      guard world request ∧
        ∀ reply after, env world request reply after →
          Obeys env guard post fail (rest reply) after
  | .outOfFuel, _ => False

section

variable {env : Environment Call Reply World} {guard : World → Call → Prop}
  {post : α → World → Prop} {fail : ε → World → Prop} {world : World}

@[simp] theorem bind_eq (program : Program Call Reply ε α)
    (next : α → Program Call Reply ε β) :
    program >>= next = program.bind next := rfl

@[simp] theorem pure_eq (value : α) :
    (Pure.pure value : Program Call Reply ε α) = .pure value := rfl

theorem bind_assoc {γ : Type} (program : Program Call Reply ε α)
    (next : α → Program Call Reply ε β)
    (last : β → Program Call Reply ε γ) :
    (program.bind next).bind last =
      program.bind fun value => (next value).bind last := by
  induction program with
  | pure value => rfl
  | throw error => rfl
  | call request rest ih => exact congrArg _ (funext ih)
  | outOfFuel => rfl

@[simp] theorem obeys_pure (value : α) :
    (Program.pure value : Program Call Reply ε α).Obeys env guard post fail
      world ↔ post value world := Iff.rfl

@[simp] theorem obeys_throw (error : ε) :
    (Program.throw error : Program Call Reply ε α).Obeys env guard post fail
      world ↔ fail error world := Iff.rfl

theorem obeys_call {request : Call}
    {rest : Reply request → Program Call Reply ε α}
    (hguard : guard world request)
    (hrest : ∀ reply after, env world request reply after →
      (rest reply).Obeys env guard post fail after) :
    (Program.call request rest).Obeys env guard post fail world :=
  ⟨hguard, hrest⟩

theorem obeys_require {condition : Prop} [Decidable condition] {error : ε}
    {post : Unit → World → Prop} (hpost : condition → post () world)
    (hfail : ¬ condition → fail error world) :
    (Program.require condition error).Obeys env guard post fail world := by
  unfold require
  split
  · exact hpost ‹_›
  · exact hfail ‹_›

theorem obeys_raise {E : Type} {toError : E → ε} {result : Except E α}
    (hpost : ∀ value, result = .ok value → post value world)
    (hfail : ∀ error, result = .error error → fail (toError error) world) :
    (Program.raise toError result).Obeys env guard post fail world := by
  cases result with
  | ok value => exact hpost value rfl
  | error error => exact hfail error rfl

theorem Obeys.mono {program : Program Call Reply ε α}
    {weaker : α → World → Prop} {weakerFail : ε → World → Prop}
    (hobeys : program.Obeys env guard post fail world)
    (hpost : ∀ value after, post value after → weaker value after)
    (hfail : ∀ error after, fail error after → weakerFail error after) :
    program.Obeys env guard weaker weakerFail world := by
  induction program generalizing world with
  | pure value => exact hpost value world hobeys
  | throw error => exact hfail error world hobeys
  | call request rest ih =>
      exact ⟨hobeys.1, fun reply after henv =>
        ih reply (hobeys.2 reply after henv)⟩
  | outOfFuel => exact hobeys

theorem Obeys.widen {program : Program Call Reply ε α}
    {wider : World → Call → Prop}
    (hobeys : program.Obeys env guard post fail world)
    (hguard : ∀ world request, guard world request → wider world request) :
    program.Obeys env wider post fail world := by
  induction program generalizing world with
  | pure value => exact hobeys
  | throw error => exact hobeys
  | call request rest ih =>
      exact ⟨hguard _ _ hobeys.1, fun reply after henv =>
        ih reply (hobeys.2 reply after henv)⟩
  | outOfFuel => exact hobeys

theorem Obeys.bind {program : Program Call Reply ε α}
    {next : α → Program Call Reply ε β} {last : β → World → Prop}
    (hobeys : program.Obeys env guard
      (fun value after => (next value).Obeys env guard last fail after)
      fail world) :
    (program.bind next).Obeys env guard last fail world := by
  induction program generalizing world with
  | pure value => exact hobeys
  | throw error => exact hobeys
  | call request rest ih =>
      exact ⟨hobeys.1, fun reply after henv =>
        ih reply (hobeys.2 reply after henv)⟩
  | outOfFuel => exact hobeys

/-- Sequencing with the postcondition of the first part known. -/
theorem Obeys.seq {program : Program Call Reply ε α}
    {next : α → Program Call Reply ε β} {last : β → World → Prop}
    {firstFail : ε → World → Prop}
    (hfirst : program.Obeys env guard post firstFail world)
    (hfail : ∀ error after, firstFail error after → fail error after)
    (hnext : ∀ value after, post value after →
      (next value).Obeys env guard last fail after) :
    (program.bind next).Obeys env guard last fail world :=
  Obeys.bind (hfirst.mono hnext hfail)

theorem obeys_mapError {rewrite : ε → ε} {program : Program Call Reply ε α}
    (hobeys : program.Obeys env guard post
      (fun error after => fail (rewrite error) after) world) :
    (program.mapError rewrite).Obeys env guard post fail world := by
  induction program generalizing world with
  | pure value => exact hobeys
  | throw error => exact hobeys
  | call request rest ih =>
      exact ⟨hobeys.1, fun reply after henv =>
        ih reply (hobeys.2 reply after henv)⟩
  | outOfFuel => exact hobeys

/-- A finer world, of which the traversed one is a view, is obeyed as well. -/
theorem Obeys.refine {program : Program Call Reply ε α} {view : Fine → World}
    {fineEnv : Environment Call Reply Fine} {fine : Fine}
    (hview : ∀ before request reply after,
      fineEnv before request reply after →
        env (view before) request reply (view after))
    (hobeys : program.Obeys env guard post fail (view fine)) :
    program.Obeys fineEnv (fun world request => guard (view world) request)
      (fun value world => post value (view world))
      (fun error world => fail error (view world)) fine := by
  induction program generalizing fine with
  | pure value => exact hobeys
  | throw error => exact hobeys
  | call request rest ih =>
      exact ⟨hobeys.1, fun reply after henv =>
        ih reply (hobeys.2 reply _ (hview _ _ _ _ henv))⟩
  | outOfFuel => exact hobeys

/-- The outcome of a run satisfies its postcondition. -/
theorem Runs.satisfies {program : Program Call Reply ε α}
    {outcome : Outcome ε α} {last : World}
    (hruns : Runs env program world outcome last)
    (hobeys : program.Obeys env guard post fail world) :
    outcome.Satisfies post fail last := by
  induction hruns with
  | crash program world => trivial
  | pure value world => exact hobeys
  | throw error world => exact hobeys
  | call henv _ ih => exact ih (hobeys.2 _ _ henv)

/-- What guarded calls preserve holds wherever a run ends. -/
theorem Runs.obeyed {program : Program Call Reply ε α} {Inv : World → Prop}
    {outcome : Outcome ε α} {last : World}
    (hruns : Runs env program world outcome last)
    (hobeys : program.Obeys env guard post fail world)
    (hinv : Inv world)
    (hstep : ∀ before request reply after, Inv before →
      guard before request → env before request reply after → Inv after) :
    Inv last := by
  induction hruns with
  | crash program world => exact hinv
  | pure value world => exact hinv
  | throw error world => exact hinv
  | call henv _ ih =>
      exact ih (hobeys.2 _ _ henv) (hstep _ _ _ _ hinv hobeys.1 henv)

/-- A run of two programs in sequence ends in the first one, or in the second
one after the first returned. -/
theorem Runs.of_bind {program : Program Call Reply ε α}
    {next : α → Program Call Reply ε β} {outcome : Outcome ε β} {last : World}
    (hruns : Runs env (program.bind next) world outcome last) :
    (∃ value middle, Runs env program world (.returned value) middle ∧
      Runs env (next value) middle outcome last) ∨
      (∀ value, outcome ≠ .returned value) ∧
        ∃ ended : Outcome ε α, (∀ value, ended ≠ .returned value) ∧
          Runs env program world ended last := by
  induction program generalizing world with
  | pure value => exact Or.inl ⟨value, world, .pure value world, hruns⟩
  | throw error =>
      cases hruns with
      | crash => exact Or.inr ⟨by simp, .crashed, by simp, .crash _ _⟩
      | throw => exact Or.inr ⟨by simp, .failed error, by simp, .throw _ _⟩
  | call request rest ih =>
      cases hruns with
      | crash => exact Or.inr ⟨by simp, .crashed, by simp, .crash _ _⟩
      | call henv hrest =>
          rcases ih _ hrest with ⟨value, middle, hfirst, hsecond⟩ |
            ⟨hended, ended, hother, hfirst⟩
          · exact Or.inl ⟨value, middle, .call henv hfirst, hsecond⟩
          · exact Or.inr ⟨hended, ended, hother, .call henv hfirst⟩
  | outOfFuel =>
      cases hruns with
      | crash => exact Or.inr ⟨by simp, .crashed, by simp, .crash _ _⟩

/-- A program with enough fuel always has a complete run, if the environment
always answers. -/
theorem Obeys.completes {program : Program Call Reply ε α}
    (hobeys : program.Obeys env guard post fail world)
    (hanswers : ∀ before request, ∃ reply after,
      env before request reply after) :
    ∃ outcome last, Runs env program world outcome last ∧
      outcome ≠ .crashed := by
  induction program generalizing world with
  | pure value => exact ⟨_, _, .pure value world, by simp⟩
  | throw error => exact ⟨_, _, .throw error world, by simp⟩
  | call request rest ih =>
      rcases hanswers world request with ⟨reply, after, henv⟩
      rcases ih reply (hobeys.2 reply after henv) with
        ⟨outcome, last, hruns, hcomplete⟩
      exact ⟨outcome, last, .call henv hruns, hcomplete⟩
  | outOfFuel => exact hobeys.elim

end

/-! ## Deterministic environments -/

/-- The complete run against an environment which answers by a function. -/
def play (answer : World → (request : Call) → Reply request × World) :
    Program Call Reply ε α → World → Outcome ε α × World
  | .pure value, world => (.returned value, world)
  | .throw error, world => (.failed error, world)
  | .call request rest, world =>
      play answer (rest (answer world request).1) (answer world request).2
  | .outOfFuel, world => (.crashed, world)

theorem play_runs {env : Environment Call Reply World}
    (answer : World → (request : Call) → Reply request × World)
    (hanswer : ∀ world request,
      env world request (answer world request).1 (answer world request).2)
    (program : Program Call Reply ε α) (world : World) :
    Runs env program world (program.play answer world).1
      (program.play answer world).2 := by
  induction program generalizing world with
  | pure value => exact .pure value world
  | throw error => exact .throw error world
  | call request rest ih => exact .call (hanswer world request) (ih _ _)
  | outOfFuel => exact .crash _ world

end Program

/-! ## Sessions -/

/-- The worlds between operations.  A crash leaves what `recover` makes of
the world it happened in; `begin` is what starting an operation does. -/
inductive Session {Call : Type} {Reply : Call → Type} {ε α World : Type}
    (env : Environment Call Reply World) (start : World → Prop)
    (operation : Program Call Reply ε α → Prop)
    (begin recover : World → World) : World → Prop
  | start {world : World} (hstart : start world) :
      Session env start operation begin recover world
  | complete {world after : World} {program : Program Call Reply ε α}
      {outcome : Outcome ε α}
      (hsession : Session env start operation begin recover world)
      (hoperation : operation program)
      (hruns : program.Runs env (begin world) outcome after)
      (hcomplete : outcome ≠ .crashed) :
      Session env start operation begin recover after
  | crash {world after : World} {program : Program Call Reply ε α}
      {outcome : Outcome ε α}
      (hsession : Session env start operation begin recover world)
      (hoperation : operation program)
      (hruns : program.Runs env (begin world) outcome after) :
      Session env start operation begin recover (recover after)

section

variable {Call : Type} {Reply : Call → Type} {ε α World : Type}
  {env : Environment Call Reply World} {start : World → Prop}
  {operation : Program Call Reply ε α → Prop} {begin recover : World → World}
  {guard : World → Call → Prop} {post : α → World → Prop}
  {fail : ε → World → Prop} {Inv Rest : World → Prop}

/-- The worlds of a session: those between operations, and those which the
run of an operation passes through. -/
def Passes (env : Environment Call Reply World) (start : World → Prop)
    (operation : Program Call Reply ε α → Prop)
    (begin recover : World → World) (world : World) : Prop :=
  Session env start operation begin recover world ∨
    ∃ before program outcome,
      Session env start operation begin recover before ∧
        operation program ∧ program.Runs env (begin before) outcome world

/-- An invariant of guarded calls, with what holds between operations. -/
structure SessionInvariant (env : Environment Call Reply World)
    (start : World → Prop) (operation : Program Call Reply ε α → Prop)
    (begin recover : World → World) (guard : World → Call → Prop)
    (post : α → World → Prop) (fail : ε → World → Prop)
    (Inv Rest : World → Prop) : Prop where
  started : ∀ world, start world → Rest world
  begun : ∀ world, Rest world → Inv (begin world)
  recovered : ∀ world, Inv world → Rest (recover world)
  returned : ∀ value world, Inv world → post value world → Rest world
  failed : ∀ error world, Inv world → fail error world → Rest world
  obeys : ∀ program world, operation program → Rest world →
    program.Obeys env guard post fail (begin world)
  step : ∀ before request reply after, Inv before → guard before request →
    env before request reply after → Inv after

namespace SessionInvariant

variable (hinvariant : SessionInvariant env start operation begin recover
  guard post fail Inv Rest)

include hinvariant

theorem run {before after : World} {program : Program Call Reply ε α}
    {outcome : Outcome ε α} (hrest : Rest before)
    (hoperation : operation program)
    (hruns : program.Runs env (begin before) outcome after) : Inv after :=
  hruns.obeyed (hinvariant.obeys program before hoperation hrest)
    (hinvariant.begun before hrest) hinvariant.step

theorem between {world : World}
    (hsession : Session env start operation begin recover world) :
    Rest world := by
  induction hsession with
  | start h => exact hinvariant.started _ h
  | @complete before after program outcome _ hoperation hruns hcomplete ih =>
      have hinv := hinvariant.run ih hoperation hruns
      have houtcome := hruns.satisfies
        (hinvariant.obeys program before hoperation ih)
      cases outcome with
      | returned value => exact hinvariant.returned value after hinv houtcome
      | failed error => exact hinvariant.failed error after hinv houtcome
      | crashed => exact absurd rfl hcomplete
  | crash _ hoperation hruns ih =>
      exact hinvariant.recovered _ (hinvariant.run ih hoperation hruns)

theorem passes {Always : World → Prop} {world : World}
    (hrest : ∀ world, Rest world → Always world)
    (hinv : ∀ world, Inv world → Always world)
    (hpasses : Passes env start operation begin recover world) :
    Always world := by
  rcases hpasses with hsession | ⟨before, program, outcome, hsession,
    hoperation, hruns⟩
  · exact hrest world (hinvariant.between hsession)
  · exact hinv world
      (hinvariant.run (hinvariant.between hsession) hoperation hruns)

end SessionInvariant

end

end HoprStrategy.Library
