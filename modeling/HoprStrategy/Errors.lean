import Mathlib.Logic.Basic

/-!
# Errors of a strategy

`Cause` stands for the errors wrapped behind `anyhow::Error`.  Which of those a
pool classifies as fund-free is the pool's own business, so the classification
is a parameter.
-/

namespace HoprStrategy

inductive GeneralError where
  | invalidInput
  | parseError (text : String)
  | nonSpecificError (text : String)
  deriving DecidableEq

inductive StrategyError (Cause : Type) where
  | criteriaNotSatisfied
  | inProgress
  | invalidConfiguration (text : String)
  | other (cause : Cause)
  | hoprError (cause : Cause)
  | generalError (error : GeneralError)
  deriving DecidableEq

/-- Whether a failed deposit carrying this error provably moved no funds. -/
def StrategyError.movedNoFunds {Cause : Type}
    (errorMovedNoFunds : Cause → Bool) : StrategyError Cause → Bool
  | .generalError .invalidInput => true
  | .other error => errorMovedNoFunds error
  | _ => false

end HoprStrategy
