import HoprStrategy.Library.EffectProgram

/-!
# Programs over the calls of others

A program whose calls are closures is a program of its caller, once each call
is replaced by what the caller hands over for it.
-/

namespace HoprStrategy.Library.Program

variable {Call Outer : Type} {Reply : Call → Type} {OuterReply : Outer → Type}
  {ε δ α β : Type}

/-- The program with `closures` for its calls. -/
def translate (closures : (request : Call) →
      Program Outer OuterReply δ (Reply request)) (error : ε → δ) :
    Program Call Reply ε α → Program Outer OuterReply δ α
  | .pure value => .pure value
  | .throw problem => .throw (error problem)
  | .call request rest =>
      (closures request).bind fun reply => (rest reply).translate closures error
  | .outOfFuel => .outOfFuel

variable {closures : (request : Call) →
    Program Outer OuterReply δ (Reply request)} {error : ε → δ}

theorem translate_bind (program : Program Call Reply ε α)
    (next : α → Program Call Reply ε β) :
    (program.bind next).translate closures error =
      (program.translate closures error).bind fun value =>
        (next value).translate closures error := by
  induction program with
  | pure value => rfl
  | throw problem => rfl
  | call request rest ih =>
      simp only [bind, translate, ih, bind_assoc]
  | outOfFuel => rfl

theorem translate_raise {E : Type} {toError : E → ε} (result : Except E α) :
    (raise toError result : Program Call Reply ε α).translate closures error =
      raise (fun problem => error (toError problem)) result := by
  cases result with
  | ok value => rfl
  | error problem => rfl

theorem translate_require (condition : Prop) [Decidable condition]
    (problem : ε) :
    (require condition problem : Program Call Reply ε Unit).translate closures
        error = require condition (error problem) := by
  unfold require
  split
  · rfl
  · rfl

end HoprStrategy.Library.Program
