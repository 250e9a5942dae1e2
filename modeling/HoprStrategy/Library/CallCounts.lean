import Mathlib.Data.Nat.Notation
import HoprStrategy.Library.EffectProgram

/-!
# Counting the calls of a program

A program `Avoids` a kind of call when no path of it makes one.  A tally is
the world which only counts the calls of the kind, so how often a program
makes them is proved by the rules of `Obeys`, and carries over to every world
the tally is a view of.
-/

namespace HoprStrategy.Library

namespace Program

variable {Call : Type} {Reply : Call → Type} {ε α β World : Type}
  {kind : Call → Prop}

/-- No path makes a call of the kind or runs out of fuel. -/
def Avoids (kind : Call → Prop) : Program Call Reply ε α → Prop
  | .pure _ => True
  | .throw _ => True
  | .call request rest => ¬ kind request ∧ ∀ reply, Avoids kind (rest reply)
  | .outOfFuel => False

theorem Avoids.bind {program : Program Call Reply ε α}
    {next : α → Program Call Reply ε β} (havoids : program.Avoids kind)
    (hnext : ∀ value, (next value).Avoids kind) :
    (program.bind next).Avoids kind := by
  induction program with
  | pure value => exact hnext value
  | throw error => trivial
  | call request rest ih =>
      exact ⟨havoids.1, fun reply => ih reply (havoids.2 reply)⟩
  | outOfFuel => exact havoids

theorem avoids_require (condition : Prop) [Decidable condition] (error : ε) :
    (Program.require condition error : Program Call Reply ε Unit).Avoids
      kind := by
  unfold require
  split <;> trivial

theorem avoids_raise {E : Type} (toError : E → ε) (result : Except E α) :
    (Program.raise toError result : Program Call Reply ε α).Avoids kind := by
  cases result <;> trivial

/-- Whatever the environment, no call of the kind is made. -/
theorem Avoids.guarded {program : Program Call Reply ε α}
    (havoids : program.Avoids kind) (env : Environment Call Reply World)
    (world : World) :
    program.Obeys env (fun _ request => ¬ kind request) (fun _ _ => True)
      (fun _ _ => True) world := by
  induction program generalizing world with
  | pure value => trivial
  | throw error => trivial
  | call request rest ih =>
      exact ⟨havoids.1, fun reply after _ =>
        ih reply (havoids.2 reply) after⟩
  | outOfFuel => exact havoids

theorem avoids_call {request : Call}
    {rest : Reply request → Program Call Reply ε α}
    (hrequest : ¬ kind request) (hrest : ∀ reply, (rest reply).Avoids kind) :
    (Program.call request rest).Avoids kind :=
  ⟨hrequest, hrest⟩

/-- Two specifications of a program hold together. -/
theorem Obeys.and {env : Environment Call Reply World}
    {guard guard' : World → Call → Prop} {post post' : α → World → Prop}
    {fail fail' : ε → World → Prop} {program : Program Call Reply ε α}
    {world : World} (hfirst : program.Obeys env guard post fail world)
    (hsecond : program.Obeys env guard' post' fail' world) :
    program.Obeys env
      (fun world request => guard world request ∧ guard' world request)
      (fun value after => post value after ∧ post' value after)
      (fun error after => fail error after ∧ fail' error after) world := by
  induction program generalizing world with
  | pure value => exact ⟨hfirst, hsecond⟩
  | throw error => exact ⟨hfirst, hsecond⟩
  | call request rest ih =>
      exact ⟨⟨hfirst.1, hsecond.1⟩, fun reply after henv =>
        ih reply (hfirst.2 reply after henv) (hsecond.2 reply after henv)⟩
  | outOfFuel => exact hfirst

/-! ## Tallies -/

section

variable [DecidablePred kind]

/-- The environment which answers anything, and counts the calls of the
kind. -/
def tally (kind : Call → Prop) [DecidablePred kind] :
    Environment Call Reply ℕ :=
  fun before request _ after =>
    after = if kind request then before + 1 else before

theorem Avoids.obeys {program : Program Call Reply ε α}
    (havoids : program.Avoids kind) (count : ℕ) :
    program.Obeys (tally kind) (fun _ request => ¬ kind request)
      (fun _ after => after = count) (fun _ after => after = count) count := by
  induction program with
  | pure value => rfl
  | throw error => rfl
  | call request rest ih =>
      refine ⟨havoids.1, fun reply after hafter => ?_⟩
      rw [tally, if_neg havoids.1] at hafter
      subst hafter
      exact ih reply (havoids.2 reply)
  | outOfFuel => exact havoids

/-- Every call of the kind is made while the tally stands at `count`. -/
abbrev Once (kind : Call → Prop) [DecidablePred kind] (count : ℕ)
    (program : Program Call Reply ε α) (post : α → ℕ → Prop) (before : ℕ) :
    Prop :=
  program.Obeys (tally kind)
    (fun before request => kind request → before = count) post
    (fun _ _ => True) before

theorem Avoids.once {program : Program Call Reply ε α}
    (havoids : program.Avoids kind) (count before : ℕ) :
    Once kind count program (fun _ after => after = before) before := by
  apply Obeys.mono ((havoids.obeys before).widen _) (fun _ _ h => h)
  · exact fun _ _ _ => trivial
  · exact fun _ _ havoids hkind => absurd hkind havoids

/-- A part which makes no call of the kind leaves the tally alone. -/
theorem Avoids.seq_once {program : Program Call Reply ε α}
    {next : α → Program Call Reply ε β} {count before : ℕ}
    {post : β → ℕ → Prop} (havoids : program.Avoids kind)
    (hnext : ∀ value, Once kind count (next value) post before) :
    Once kind count (program.bind next) post before := by
  apply Obeys.seq (havoids.once count before) fun _ _ h => h
  rintro value _ rfl
  exact hnext value

/-- A program all of whose calls of the kind are made at one count makes at
most one. -/
theorem Runs.tally_le {env : Environment Call Reply World} {view : World → ℕ}
    (hview : ∀ before request reply after, env before request reply after →
      tally kind (view before) request reply (view after))
    {program : Program Call Reply ε α} {post : α → World → Prop}
    {fail : ε → World → Prop} {world last : World} {outcome : Outcome ε α}
    (hruns : program.Runs env world outcome last)
    (hobeys : program.Obeys env
      (fun before request => kind request → view before = view world) post
      fail world) : view last ≤ view world + 1 := by
  have hstep : ∀ before request reply after,
      view before ≤ view world + 1 →
      (kind request → view before = view world) →
      env before request reply after → view after ≤ view world + 1 := by
    intro before request reply after hbefore hguard henv
    have hafter := hview before request reply after henv
    unfold tally at hafter
    split at hafter
    · apply Nat.le_of_eq
      rw [hafter, hguard ‹_›]
    · rw [hafter]
      exact hbefore
  exact hruns.obeyed hobeys (Nat.le_succ _) hstep

end

end Program

end HoprStrategy.Library
