import HoprStrategy.ChannelTick
import Mathlib.Data.List.AList
import Mathlib.Data.List.Sort
import Mathlib.Data.List.Dedup

/-!
# What a selector ranks

A tick hands the selector its open channels, the peers it may open channels to,
and the latency and subnet cell of every open channel.  Channels are distinct,
and every channel with a cell is one of the open ones.  Scores are exact
rationals.
-/

namespace HoprStrategy.ChannelLifecycle

/-! ## Cells -/

inductive LatencyBucket where
  | veryFast
  | fast
  | medium
  | slow
  | verySlow
  deriving DecidableEq

/-- Durations are counted in nanoseconds, and compared in milliseconds. -/
def LatencyBucket.fromLatency : Option ℕ → LatencyBucket
  | none => .verySlow
  | some nanoseconds =>
      let milliseconds := nanoseconds / 10 ^ 6
      if milliseconds ≤ 50 then .veryFast
      else if milliseconds ≤ 75 then .fast
      else if milliseconds ≤ 125 then .medium
      else if milliseconds ≤ 200 then .slow
      else .verySlow

inductive SubnetBucket where
  | v4Prefix (octets : Vector UInt8 3)
  | v6Prefix (octets : Vector UInt8 6)
  | dns (name : String)
  | unknown
  deriving DecidableEq

structure BucketCell where
  latency : LatencyBucket
  subnet : SubnetBucket
  deriving DecidableEq

/-- Only the cells of a known subnet count towards diversity. -/
def BucketCell.isKnown (cell : BucketCell) : Bool := cell.subnet ≠ .unknown

/-- The cells of the open channels. -/
structure BucketView (Id : Type) where
  cells : AList fun _ : Id => BucketCell

namespace BucketView

variable {Id : Type} [DecidableEq Id] (view : BucketView Id)

def cellFor (id : Id) : Option BucketCell := view.cells.lookup id

omit [DecidableEq Id] in
def cellCount (cell : BucketCell) : ℕ :=
  view.cells.entries.countP fun entry => entry.2 = cell

omit [DecidableEq Id] in
/-- Relative occupancy of a cell among all open channels. -/
def bucketCoverage (cell : BucketCell) : ℚ :=
  if view.cells.entries.length = 0 then 0
  else view.cellCount cell / view.cells.entries.length

end BucketView

/-! ## Candidates -/

structure PeerEdgeInfo where
  edgeScore : Option ℚ
  lastUpdate : ℕ
  averageLatency : Option ℕ
  probeSuccessRate : Option ℚ
  ackRate : Option ℚ
  deriving DecidableEq

namespace PeerEdgeInfo

/-- The score of a signal which was never measured. -/
def unmeasured : ℚ := 1 / 2

def probeScore (edge : PeerEdgeInfo) : ℚ :=
  edge.probeSuccessRate.getD unmeasured

def ackScore (edge : PeerEdgeInfo) : ℚ := edge.ackRate.getD unmeasured

def qualityScore (edge : PeerEdgeInfo) : ℚ := edge.edgeScore.getD unmeasured

def hasProbingData (edge : PeerEdgeInfo) : Bool := 0 < edge.lastUpdate

end PeerEdgeInfo

structure OpenCandidate (Addr Key : Type) where
  addr : Addr
  offchainKey : Key
  edgeInfo : PeerEdgeInfo
  ticketScore : Option ℚ
  subnet : SubnetBucket
  deriving DecidableEq

def OpenCandidate.cell {Addr Key : Type} (candidate : OpenCandidate Addr Key) :
    BucketCell :=
  ⟨.fromLatency candidate.edgeInfo.averageLatency, candidate.subnet⟩

structure CloseCandidate (Id Addr Key : Type) where
  channel : ChannelEntry Id Addr
  offchainKey : Option Key
  edgeInfo : PeerEdgeInfo
  ticketScore : Option ℚ
  deriving DecidableEq

structure EligibilityConfig where
  minPeerQualityScore : ℚ
  peerQualityWeight : ℚ
  ticketActivityWeight : ℚ
  requireObservedSinceStart : Bool
  demoteNonForwardingPeers : Bool
  minimumPeerOutgoingChannels : ℕ

def EligibilityConfig.compositeQualityScore (cfg : EligibilityConfig)
    (edgeScore : ℚ) : Option ℚ → ℚ
  | some ticketScore =>
      cfg.peerQualityWeight * edgeScore +
        cfg.ticketActivityWeight * ticketScore
  | none => edgeScore

structure ClosureConfig where
  closeWhenDrainedBelow : HoprBalance
  closeBelowQualityScore : ℚ
  closeWhenPeerUnseenFor : ℕ

/-- Everything a selector needs for one tick.  Peers without a stake or a
forwarding count have none. -/
structure SelectorContext (Id Addr Key : Type) [DecidableEq Id] where
  eligibility : EligibilityConfig
  closure : ClosureConfig
  deficit : ℕ
  openCandidates : List (OpenCandidate Addr Key)
  closeCandidates : List (CloseCandidate Id Addr Key)
  startEpochElapsed : ℕ
  bucketView : BucketView Id
  stakeView : Addr → ℚ
  forwardingView : Addr → UInt32
  channelsDistinct : (closeCandidates.map (·.channel.id)).Nodup
  cellsOpen : ∀ id ∈ bucketView.cells, id ∈ closeCandidates.map (·.channel.id)

section

variable {Id Addr Key : Type} [DecidableEq Id]

/-- `DefaultSelector::should_close`. -/
def shouldClose (ctx : SelectorContext Id Addr Key)
    (qualityThreshold : Option ℚ) (candidate : CloseCandidate Id Addr Key) :
    Bool :=
  if candidate.channel.balance ≤ ctx.closure.closeWhenDrainedBelow then true
  else if candidate.offchainKey.isNone then false
  else if !candidate.edgeInfo.hasProbingData then false
  else if ctx.eligibility.compositeQualityScore candidate.edgeInfo.qualityScore
      candidate.ticketScore <
        qualityThreshold.getD ctx.closure.closeBelowQualityScore then true
  else
    let lastUpdate := candidate.edgeInfo.lastUpdate
    let stale := ctx.closure.closeWhenPeerUnseenFor < lastUpdate
    let observedSinceStart := lastUpdate < ctx.startEpochElapsed
    let guardPassed :=
      !ctx.eligibility.requireObservedSinceStart || observedSinceStart
    stale && guardPassed

/-- A peer which sources enough funded channels to be an intermediate relay. -/
def forwards (ctx : SelectorContext Id Addr Key)
    (candidate : OpenCandidate Addr Key) : Bool :=
  max ctx.eligibility.minimumPeerOutgoingChannels 1 ≤
    (ctx.forwardingView candidate.addr).toNat

/-- The relay-capable candidates and the ticket sinks. -/
def partitionByForwarding (ctx : SelectorContext Id Addr Key) :
    List (OpenCandidate Addr Key) × List (OpenCandidate Addr Key) :=
  if !ctx.eligibility.demoteNonForwardingPeers then (ctx.openCandidates, [])
  else ctx.openCandidates.partition (forwards ctx)

end

/-! ## The multi-objective scores -/

structure SelectorWeights where
  latency : ℚ
  trust : ℚ
  stake : ℚ
  anonymity : ℚ
  trustProbe : ℚ
  trustAck : ℚ
  trustTicket : ℚ

structure MultiObjectiveSelectorConfig where
  weights : SelectorWeights
  openPerTick : ℕ
  closePerTick : ℕ
  kFloor : ℕ
  hysteresisGap : ℚ

namespace MultiObjective

variable {Id Addr Key : Type} [DecidableEq Id]

/-- A latency which was never measured is not a slow one. -/
def latencyScore (averageLatency : Option ℕ) : ℚ :=
  if averageLatency.isNone then PeerEdgeInfo.unmeasured
  else
    match LatencyBucket.fromLatency averageLatency with
    | .veryFast => 1
    | .fast => 3 / 4
    | .medium => 1 / 2
    | .slow => 1 / 4
    | .verySlow => 0

/-- `trust_score_open` and `trust_score_close`. -/
def trustScore (cfg : MultiObjectiveSelectorConfig) (edge : PeerEdgeInfo)
    (ticketScore : Option ℚ) : ℚ :=
  cfg.weights.trustProbe * edge.probeScore +
    cfg.weights.trustAck * edge.ackScore +
      cfg.weights.trustTicket * ticketScore.getD 0

def utility (cfg : MultiObjectiveSelectorConfig)
    (ctx : SelectorContext Id Addr Key) (edge : PeerEdgeInfo)
    (ticketScore : Option ℚ) (addr : Addr) : ℚ :=
  cfg.weights.latency * latencyScore edge.averageLatency +
    cfg.weights.trust * trustScore cfg edge ticketScore +
      cfg.weights.stake * ctx.stakeView addr

def finalScoreOpen (cfg : MultiObjectiveSelectorConfig)
    (ctx : SelectorContext Id Addr Key)
    (candidate : OpenCandidate Addr Key) : ℚ :=
  utility cfg ctx candidate.edgeInfo candidate.ticketScore candidate.addr -
    cfg.weights.anonymity * ctx.bucketView.bucketCoverage candidate.cell

def finalScoreClose (cfg : MultiObjectiveSelectorConfig)
    (ctx : SelectorContext Id Addr Key)
    (candidate : CloseCandidate Id Addr Key) : ℚ :=
  let penalty :=
    match ctx.bucketView.cellFor candidate.channel.id with
    | some cell => cfg.weights.anonymity * ctx.bucketView.bucketCoverage cell
    | none => 0
  utility cfg ctx candidate.edgeInfo candidate.ticketScore
    candidate.channel.destination - penalty

end MultiObjective

end HoprStrategy.ChannelLifecycle
