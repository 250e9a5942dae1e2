import HoprStrategy.CurvyRefundMonitor
import HoprStrategy.CurvySweep
import HoprStrategy.Errors

/-!
# The refund class of a pool error

The errors of the pool as `allocate` wraps them, whether they prove that no
funds moved, and the copy which every deposit of a failed batch is given.
-/

namespace HoprStrategy.Curvy.Refund

/-- An `anyhow::Error` of the adapter, as it is downcast. -/
inductive AdapterError where
  | sdk (error : SdkError)
  | other (text : String)
  deriving DecidableEq

def AdapterError.display : AdapterError → String
  | .sdk error => error.display
  | .other text => text

inductive CurvyDepositPoolError where
  | adapter (error : AdapterError)
  | state (error : CurvyStateError)
  | invalidReconstructedSecret (text : String)
  | missingScanSecret (id : PixAddressId)
  | mismatchedDepositData (expected actual : PixAddressId)
  | watcherStopped
  | reconciliationPending
  | indexer (text : String)
  | depositTimeout
  | scanIdentity (text : String)
  | unsupportedPoolTransfer
  deriving DecidableEq

/-- What foreign types are displayed as. -/
structure ErrorTexts where
  debugId : PixAddressId → String
  generalError : GeneralError → String

namespace CurvyDepositPoolError

def display (texts : ErrorTexts) : CurvyDepositPoolError → String
  | .adapter error => "Curvy SDK operation failed: " ++ error.display
  | .state (.database text) => "Curvy PIX state database error: " ++ text
  | .state (.corrupt text) => "corrupt Curvy PIX state: " ++ text
  | .invalidReconstructedSecret text =>
      "invalid reconstructed Baby JubJub PIX withdrawal key: " ++ text
  | .missingScanSecret id =>
      "no Curvy scan secret is stored for PIX allocation " ++
        texts.debugId id ++ "; its deposit data was never generated here"
  | .mismatchedDepositData expected actual =>
      "PIX deposit data is filed under " ++ texts.debugId actual ++
        " but the deposit is for " ++ texts.debugId expected
  | .watcherStopped =>
      "Curvy deposit watcher stopped before the deposit was committed"
  | .reconciliationPending =>
      "Curvy recovery state is not yet confirmed by the endpoint; retry " ++
        "after synchronization, or use a fresh state_path for a new deployment"
  | .indexer text => "Curvy indexer query failed: " ++ text
  | .depositTimeout =>
      "timed out waiting for a Curvy deposit to be committed"
  | .scanIdentity text =>
      "could not generate a Curvy scan identity: " ++ text
  | .unsupportedPoolTransfer =>
      "Curvy pool-to-pool transfer is not supported; PIX settlement " ++
        "withdraws reconstructed deposits to the Safe"

/-- Whether this error proves the failed deposit moved no funds. -/
def movedNoFunds : CurvyDepositPoolError → Bool
  | .adapter (.sdk (.noFunding _)) => true
  | .adapter (.sdk (.sdk message)) => isPreSubmissionRefusal message
  | .adapter _ => false
  | .mismatchedDepositData _ _ => true
  | _ => false

end CurvyDepositPoolError

/-- Only the variants which can reach a batch outcome are rebuilt; the rest
become opaque. -/
def curvyClone (texts : ErrorTexts) :
    CurvyDepositPoolError → CurvyDepositPoolError
  | .mismatchedDepositData expected actual =>
      .mismatchedDepositData expected actual
  | .adapter (.sdk (.noFunding required)) =>
      .adapter (.sdk (.noFunding required))
  | .adapter (.sdk (.afterSubmission source outOfFunding)) =>
      .adapter (.sdk (.afterSubmission source outOfFunding))
  | .adapter (.sdk (.sdk message)) => .adapter (.sdk (.sdk message))
  | .adapter error => .adapter (.other error.display)
  | error => .adapter (.other (error.display texts))

/-- An `anyhow::Error` of a strategy, as it is downcast. -/
inductive Cause where
  | pool (error : CurvyDepositPoolError)
  | other (text : String)
  deriving DecidableEq

def Cause.display (texts : ErrorTexts) : Cause → String
  | .pool error => error.display texts
  | .other text => text

def errorMovedNoFunds : Cause → Bool
  | .pool error => error.movedNoFunds
  | .other _ => false

def strategyErrorDisplay (texts : ErrorTexts) : StrategyError Cause → String
  | .criteriaNotSatisfied =>
      "criteria to trigger the strategy were not satisfied"
  | .inProgress =>
      "strategy could not perform action because action of the same type is " ++
        "on-going"
  | .invalidConfiguration text => "invalid strategy configuration: " ++ text
  | .other cause => "non-specific strategy error: " ++ cause.display texts
  | .hoprError cause => "HOPR error: " ++ cause.display texts
  | .generalError error => "lower-level error: " ++ texts.generalError error

def cloneError (texts : ErrorTexts) :
    StrategyError Cause → StrategyError Cause
  | .criteriaNotSatisfied => .criteriaNotSatisfied
  | .other (.pool error) => .other (.pool (curvyClone texts error))
  | .other (.other text) => .other (.other text)
  | error => .other (.other (strategyErrorDisplay texts error))

/-! ## Classes -/

variable {texts : ErrorTexts}

/-- An SDK error is refundable exactly if it is tagged after a submission. -/
theorem movedNoFunds_adapter (error : SdkError) :
    (CurvyDepositPoolError.adapter (.sdk error)).movedNoFunds = false ↔
      Steady error := by
  cases error with
  | sdk message => exact steady_sdk.symm
  | noFunding required =>
      simp [CurvyDepositPoolError.movedNoFunds, Steady,
        SdkM.tagAfterSubmission]
  | _ =>
      simp [CurvyDepositPoolError.movedNoFunds, Steady,
        SdkM.tagAfterSubmission]

theorem movedNoFunds_curvyClone (error : CurvyDepositPoolError) :
    (curvyClone texts error).movedNoFunds = error.movedNoFunds := by
  cases error with
  | adapter error =>
      cases error with
      | sdk error => cases error <;> rfl
      | other text => rfl
  | _ => rfl

theorem movedNoFunds_cloneError (error : CurvyDepositPoolError) :
    (cloneError texts (.other (.pool error))).movedNoFunds errorMovedNoFunds =
      StrategyError.movedNoFunds errorMovedNoFunds (.other (.pool error)) :=
  movedNoFunds_curvyClone error

end HoprStrategy.Curvy.Refund
