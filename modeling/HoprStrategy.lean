import HoprStrategy.SpendCap
import HoprStrategy.DepositOnce
import HoprStrategy.DestinationGuard
import HoprStrategy.RecoveryDurability
import HoprStrategy.PlainDeposit
import HoprStrategy.RunLoop
import HoprStrategy.CurvyCatchUp
import HoprStrategy.CurvyDurability
import HoprStrategy.LeaseExclusion
import HoprStrategy.CurvyWakeUp
import HoprStrategy.CurvyReplay
import HoprStrategy.CurvySweepComplete
import HoprStrategy.CurvySpendSession
import HoprStrategy.CurvyAllocationOnce
import HoprStrategy.CurvyIndexReads
import HoprStrategy.NonceConflicts
import HoprStrategy.ConcurrencyCaps
import HoprStrategy.OwnTransactions
import HoprStrategy.PopulationFloor
import HoprStrategy.ScarceSafe
import HoprStrategy.ConsolidationStable
import HoprStrategy.ReopenCooldown
import HoprStrategy.AutoRedeeming
import HoprStrategy.AutoFunding
import HoprStrategy.RecoveryMap
import HoprStrategy.NoteSelection
import HoprStrategy.AggregationBookings
import HoprStrategy.RecoveryRecords
import HoprStrategy.MultiObjectiveCloses
import HoprStrategy.MultiObjectiveOpens
import HoprStrategy.BatchRefunds
import HoprStrategy.CurvySweepRetries
import HoprStrategy.StateHonesty
import HoprStrategy.TickPhases
import HoprStrategy.ConnectivityDebounce
import HoprStrategy.LeaseHolders
import HoprStrategy.TicketAmounts
import HoprStrategy.Library.CheckedWords
import HoprStrategy.FeeNotePricing
import HoprStrategy.SubnetBuckets
import HoprStrategy.CurvyDetectionOrder
import HoprStrategy.Library.AbiArguments
import HoprStrategy.ModuleCalldata
import HoprStrategy.Library.RowRuns
import HoprStrategy.CurvyIndexEvents
import HoprStrategy.LedgerCalls
import HoprStrategy.CurvyRefunds
import HoprStrategy.Library.OnceCell
import HoprStrategy.CurvyVaultToken
import HoprStrategy.CurvyReconcileRuns
import HoprStrategy.PlainSweepGas
import HoprStrategy.ClosureFinalizer
import HoprStrategy.CurvyDeposits
import HoprStrategy.CurvyScanIdentities
import HoprStrategy.PlainTrackingProgress
import HoprStrategy.Library.Interleaving
import HoprStrategy.MultiStrategy
