import HoprStrategy.PlainDeposit
import HoprStrategy.Library.TaskList

/-!
# Sweeps of the plain pool

The calls of `withdraw_deposit` and `pool_transfer`, any number of them at
once, and the chain around them.  A sweep moves what its deposit address holds,
signed by that address.  Its gas is topped up from the node's own account,
which keeps a reserve.  Top-ups and sweeps which were submitted land or are
dropped at any later time, and their confirmations may be lost.
-/

namespace HoprStrategy.Plain

open Library

/-- `Balance<XDai>`, which computes as `Balance<WxHOPR>` does. -/
abbrev XDaiBalance := HoprBalance

/-- The fields of `NonAnonymousDepositPoolConfig` which a sweep reads. -/
structure SweepConfig where
  gasXdaiPerSweep : XDaiBalance
  minNodeXdaiReserve : XDaiBalance
  maxSweepRetries : ℕ

/-- A deposit address on chain.  `arrived` is all the wxHOPR which was ever
sent to it. -/
structure DepositAccount where
  hopr : HoprBalance
  xdai : XDaiBalance
  arrived : ℕ

/-- `spent` is what the node paid for anything but top-ups, the fees of its own
transactions among it, since the check of a top-up last passed, if one has. -/
structure SweepChain (Address : Type) where
  accounts : Address → DepositAccount
  nodeXdai : XDaiBalance
  spent : Option ℕ

structure Transfer where
  amount : HoprBalance
  status : TransferStatus
  deriving DecidableEq

inductive SweepPhase (Cause : Type) where
  | readingHopr
  | readingXdai (balance : HoprBalance)
  | readingPayer (balance : HoprBalance) (deficit : XDaiBalance)
  | toppingUp (balance : HoprBalance) (deficit : XDaiBalance)
  /-- The last top-up waits for its confirmation. -/
  | confirmingGas (balance : HoprBalance)
  | sweeping (balance : HoprBalance)
  /-- The last sweep waits for its confirmation. -/
  | confirming (balance : HoprBalance)
  | backingOff
  | returned (result : Except (PlainError Cause) HoprBalance)

/-- One call.  `lastRead` is the balance of its address as the call last read
it, and `arrivedThen` what had arrived by then. -/
structure SweepCall (Address Cause : Type) where
  address : Address
  retriesLeft : ℕ
  phase : SweepPhase Cause
  lastRead : HoprBalance
  arrivedThen : ℕ
  topUps : List Transfer
  sweeps : List Transfer

/-- What a call does next.  `failure` is the chain's error, where the step
fails. -/
inductive SweepStep (Cause : Type) where
  | readHopr (failure : Option Cause)
  | readXdai (failure : Option Cause)
  | readPayer (failure : Option Cause)
  | topUp (failure : Option Cause)
  | gasConfirmed
  | gasUnconfirmed (failure : Cause)
  | sweep (failure : Option Cause)
  | confirmed
  | unconfirmed (failure : Cause)
  | retry

variable {Address Id Payload Cause : Type} [DecidableEq Id]
  [DecidableEq Payload]

namespace SweepCall

def withdrawDeposit (cfg : SweepConfig) (address : Address) :
    SweepCall Address Cause where
  address := address
  retriesLeft := cfg.maxSweepRetries
  phase := .readingHopr
  lastRead := .zero
  arrivedThen := 0
  topUps := []
  sweeps := []

/-- The payload is checked before the first attempt. -/
def poolTransfer (cfg : SweepConfig) (marker : Payload) (dstId : Id)
    (data : ByteDepositData Id Payload) (address : Address) :
    SweepCall Address Cause :=
  match checkDepositPayload marker dstId data with
  | .error error =>
      { (withdrawDeposit cfg address : SweepCall Address Cause) with
        phase := .returned (.error error) }
  | .ok () => withdrawDeposit cfg address

/-- The attempt has failed: the call backs off, or returns its last error. -/
def fail (call : SweepCall Address Cause) (error : PlainError Cause) :
    SweepCall Address Cause :=
  match call.retriesLeft with
  | 0 => { call with phase := .returned (.error error) }
  | left + 1 =>
      { call with
        retriesLeft := left
        phase := .backingOff }

def reads (account : DepositAccount) (call : SweepCall Address Cause) :
    SweepCall Address Cause :=
  { call with
    lastRead := account.hopr
    arrivedThen := account.arrived }

/-- An empty address is not swept.  Without a top-up to make, its gas is not
looked at. -/
def readHopr (cfg : SweepConfig) (account : DepositAccount)
    (call : SweepCall Address Cause) :
    Option Cause → SweepCall Address Cause
  | some failure => call.fail (.other (.chain failure))
  | none =>
      if account.hopr.isZero then
        (call.reads account).fail .criteriaNotSatisfied
      else if cfg.gasXdaiPerSweep.isZero then
        { call.reads account with phase := .sweeping account.hopr }
      else { call.reads account with phase := .readingXdai account.hopr }

def readXdai (cfg : SweepConfig) (account : DepositAccount)
    (call : SweepCall Address Cause) (balance : HoprBalance) :
    Option Cause → SweepCall Address Cause
  | some failure => call.fail (.other (.chain failure))
  | none =>
      if cfg.gasXdaiPerSweep ≤ account.xdai then
        { call with phase := .sweeping balance }
      else
        { call with
          phase := .readingPayer balance (cfg.gasXdaiPerSweep - account.xdai) }

def readPayer (cfg : SweepConfig) (nodeXdai : XDaiBalance)
    (call : SweepCall Address Cause) (balance : HoprBalance)
    (deficit : XDaiBalance) : Option Cause → SweepCall Address Cause
  | some failure => call.fail (.other (.chain failure))
  | none =>
      if nodeXdai < deficit + cfg.minNodeXdaiReserve then
        call.fail .criteriaNotSatisfied
      else { call with phase := .toppingUp balance deficit }

def topUp (call : SweepCall Address Cause) (balance : HoprBalance)
    (deficit : XDaiBalance) : Option Cause → SweepCall Address Cause
  | some failure => call.fail (.other (.chain failure))
  | none =>
      { call with
        phase := .confirmingGas balance
        topUps := call.topUps ++ [⟨deficit, .pending⟩] }

def sweep (call : SweepCall Address Cause) (balance : HoprBalance) :
    Option Cause → SweepCall Address Cause
  | some failure => call.fail (.other (.chain failure))
  | none =>
      { call with
        phase := .confirming balance
        sweeps := call.sweeps ++ [⟨balance, .pending⟩] }

def confirmed (transfers : List Transfer) : Bool :=
  transfers.getLast?.any fun transfer => transfer.status = .landed

def advance (cfg : SweepConfig) (chain : SweepChain Address)
    (call : SweepCall Address Cause) :
    SweepStep Cause → Option (SweepCall Address Cause)
  | .readHopr failure =>
      match call.phase with
      | .readingHopr =>
          some (call.readHopr cfg (chain.accounts call.address) failure)
      | _ => none
  | .readXdai failure =>
      match call.phase with
      | .readingXdai balance =>
          some (call.readXdai cfg (chain.accounts call.address) balance
            failure)
      | _ => none
  | .readPayer failure =>
      match call.phase with
      | .readingPayer balance deficit =>
          some (call.readPayer cfg chain.nodeXdai balance deficit failure)
      | _ => none
  | .topUp failure =>
      match call.phase with
      | .toppingUp balance deficit => some (call.topUp balance deficit failure)
      | _ => none
  | .gasConfirmed =>
      match call.phase with
      | .confirmingGas balance =>
          if confirmed call.topUps then
            some { call with phase := .sweeping balance }
          else none
      | _ => none
  | .gasUnconfirmed failure =>
      match call.phase with
      | .confirmingGas _ => some (call.fail (.other (.chain failure)))
      | _ => none
  | .sweep failure =>
      match call.phase with
      | .sweeping balance => some (call.sweep balance failure)
      | _ => none
  | .confirmed =>
      match call.phase with
      | .confirming balance =>
          if confirmed call.sweeps then
            some { call with phase := .returned (.ok balance) }
          else none
      | _ => none
  | .unconfirmed failure =>
      match call.phase with
      | .confirming _ => some (call.fail (.other (.chain failure)))
      | _ => none
  | .retry =>
      match call.phase with
      | .backingOff => some { call with phase := .readingHopr }
      | _ => none

end SweepCall

/-! ## Calls and chain -/

structure PlainSweeps (Address Cause : Type) where
  chain : SweepChain Address
  calls : List (SweepCall Address Cause)

inductive SweepAction (Address Id Payload Cause : Type) where
  | withdrawDeposit (address : Address)
  | poolTransfer (dstId : Id) (data : ByteDepositData Id Payload)
      (address : Address)
  | call (index : ℕ) (step : SweepStep Cause)
  | landTopUp (index transfer : ℕ)
  | dropTopUp (index transfer : ℕ)
  /-- The sweep lands, and the address pays for its gas. -/
  | landSweep (index transfer : ℕ) (gas : XDaiBalance)
  | dropSweep (index transfer : ℕ)
  /-- A deposit, or anyone else, funds an address. -/
  | arrive (address : Address) (hopr : HoprBalance) (xdai : XDaiBalance)
  | nodeReceives (xdai : XDaiBalance)
  | nodeSpends (xdai : XDaiBalance)

def DepositAccount.receive (account : DepositAccount) (hopr : HoprBalance)
    (xdai : XDaiBalance) : DepositAccount where
  hopr := account.hopr + hopr
  xdai := account.xdai + xdai
  arrived := account.arrived + hopr.wei

def DepositAccount.pay (account : DepositAccount) (hopr : HoprBalance)
    (xdai : XDaiBalance) : DepositAccount where
  hopr := account.hopr - hopr
  xdai := account.xdai - xdai
  arrived := account.arrived

def SweepChain.update [DecidableEq Address] (chain : SweepChain Address)
    (address : Address) (change : DepositAccount → DepositAccount) :
    SweepChain Address :=
  { chain with
    accounts := Function.update chain.accounts address
      (change (chain.accounts address)) }

/-- The node's own spending is counted anew from a check which has passed. -/
def SweepChain.noting (chain : SweepChain Address) :
    SweepStep Cause → SweepPhase Cause → SweepChain Address
  | .readPayer _, .toppingUp _ _ => { chain with spent := some 0 }
  | _, _ => chain

@[simp] theorem SweepChain.noting_accounts (chain : SweepChain Address)
    (step : SweepStep Cause) (phase : SweepPhase Cause) :
    (chain.noting step phase).accounts = chain.accounts := by
  unfold noting
  split
  · rfl
  · rfl

/-- The pending transfer at a position. -/
def pendingAmount (transfers : List Transfer) (transfer : ℕ) :
    Option HoprBalance :=
  match transfers[transfer]? with
  | some ⟨amount, .pending⟩ => some amount
  | _ => none

namespace PlainSweeps

def next [DecidableEq Address] (cfg : SweepConfig) (marker : Payload)
    (state : PlainSweeps Address Cause) :
    SweepAction Address Id Payload Cause → Option (PlainSweeps Address Cause)
  | .withdrawDeposit address =>
      some { state with
        calls := state.calls ++ [.withdrawDeposit cfg address] }
  | .poolTransfer dstId data address =>
      some { state with
        calls := state.calls ++ [.poolTransfer cfg marker dstId data address] }
  | .call index step => do
      let call ← state.calls[index]?
      let after ← call.advance cfg state.chain step
      some {
        chain := state.chain.noting step after.phase
        calls := state.calls.set index after }
  | .landTopUp index transfer => do
      let call ← state.calls[index]?
      let amount ← pendingAmount call.topUps transfer
      guard (amount ≤ state.chain.nodeXdai)
      some {
        chain := { state.chain.update call.address
            (·.receive HoprBalance.zero amount) with
          nodeXdai := state.chain.nodeXdai - amount }
        calls := state.calls.set index { call with
          topUps := call.topUps.set transfer ⟨amount, .landed⟩ } }
  | .dropTopUp index transfer => do
      let call ← state.calls[index]?
      let amount ← pendingAmount call.topUps transfer
      some { state with
        calls := state.calls.set index { call with
          topUps := call.topUps.set transfer ⟨amount, .dropped⟩ } }
  | .landSweep index transfer gas => do
      let call ← state.calls[index]?
      let amount ← pendingAmount call.sweeps transfer
      guard (amount ≤ (state.chain.accounts call.address).hopr)
      guard (gas ≤ (state.chain.accounts call.address).xdai)
      some {
        chain := state.chain.update call.address (·.pay amount gas)
        calls := state.calls.set index { call with
          sweeps := call.sweeps.set transfer ⟨amount, .landed⟩ } }
  | .dropSweep index transfer => do
      let call ← state.calls[index]?
      let amount ← pendingAmount call.sweeps transfer
      some { state with
        calls := state.calls.set index { call with
          sweeps := call.sweeps.set transfer ⟨amount, .dropped⟩ } }
  | .arrive address hopr xdai =>
      some { state with
        chain := state.chain.update address (·.receive hopr xdai) }
  | .nodeReceives xdai =>
      some { state with
        chain := { state.chain with nodeXdai := state.chain.nodeXdai + xdai } }
  | .nodeSpends xdai => do
      guard (xdai ≤ state.chain.nodeXdai)
      some { state with
        chain := { state.chain with
          nodeXdai := state.chain.nodeXdai - xdai
          spent := state.chain.spent.map (· + xdai.wei) } }

end PlainSweeps

/-- Any number of calls, from any balances. -/
def sweepSystem [DecidableEq Address] (cfg : SweepConfig)
    (marker : Payload) (nodeXdai : XDaiBalance) :
    TransitionSystem (PlainSweeps Address Cause)
      (SweepAction Address Id Payload Cause) where
  init state := state.calls = [] ∧ state.chain.nodeXdai = nodeXdai ∧
    state.chain.spent = none ∧ ∀ address,
      (state.chain.accounts address).hopr.wei ≤
        (state.chain.accounts address).arrived
  next := PlainSweeps.next cfg marker

/-! ## What one step does -/

namespace SweepCall

/-- What one step of a call does. -/
inductive Advances (cfg : SweepConfig) (chain : SweepChain Address)
    (call : SweepCall Address Cause) :
    SweepStep Cause → SweepCall Address Cause → Prop
  | readHopr (failure : Option Cause) (hphase : call.phase = .readingHopr) :
      Advances cfg chain call (.readHopr failure)
        (call.readHopr cfg (chain.accounts call.address) failure)
  | readXdai (failure : Option Cause) {balance : HoprBalance}
      (hphase : call.phase = .readingXdai balance) :
      Advances cfg chain call (.readXdai failure)
        (call.readXdai cfg (chain.accounts call.address) balance failure)
  | readPayer (failure : Option Cause) {balance : HoprBalance}
      {deficit : XDaiBalance}
      (hphase : call.phase = .readingPayer balance deficit) :
      Advances cfg chain call (.readPayer failure)
        (call.readPayer cfg chain.nodeXdai balance deficit failure)
  | topUp (failure : Option Cause) {balance : HoprBalance}
      {deficit : XDaiBalance}
      (hphase : call.phase = .toppingUp balance deficit) :
      Advances cfg chain call (.topUp failure)
        (call.topUp balance deficit failure)
  | gasConfirmed {balance : HoprBalance}
      (hphase : call.phase = .confirmingGas balance) :
      Advances cfg chain call .gasConfirmed
        { call with phase := .sweeping balance }
  | gasUnconfirmed (failure : Cause) {balance : HoprBalance}
      (hphase : call.phase = .confirmingGas balance) :
      Advances cfg chain call (.gasUnconfirmed failure)
        (call.fail (.other (.chain failure)))
  | sweep (failure : Option Cause) {balance : HoprBalance}
      (hphase : call.phase = .sweeping balance) :
      Advances cfg chain call (.sweep failure) (call.sweep balance failure)
  | confirmed {balance : HoprBalance}
      (hphase : call.phase = .confirming balance)
      (hconfirmed : SweepCall.confirmed call.sweeps = true) :
      Advances cfg chain call .confirmed
        { call with phase := .returned (.ok balance) }
  | unconfirmed (failure : Cause) {balance : HoprBalance}
      (hphase : call.phase = .confirming balance) :
      Advances cfg chain call (.unconfirmed failure)
        (call.fail (.other (.chain failure)))
  | retry (hphase : call.phase = .backingOff) :
      Advances cfg chain call .retry { call with phase := .readingHopr }

variable {cfg : SweepConfig} {chain : SweepChain Address}
  {call after : SweepCall Address Cause}

theorem advances_of_advance {step : SweepStep Cause}
    (hadvance : call.advance cfg chain step = some after) :
    Advances cfg chain call step after := by
  cases step with
  | readHopr failure =>
      simp only [SweepCall.advance] at hadvance
      split at hadvance
      · next hphase =>
          cases hadvance
          exact .readHopr failure hphase
      · cases hadvance
  | readXdai failure =>
      simp only [SweepCall.advance] at hadvance
      split at hadvance
      · next hphase =>
          cases hadvance
          exact .readXdai failure hphase
      · cases hadvance
  | readPayer failure =>
      simp only [SweepCall.advance] at hadvance
      split at hadvance
      · next hphase =>
          cases hadvance
          exact .readPayer failure hphase
      · cases hadvance
  | topUp failure =>
      simp only [SweepCall.advance] at hadvance
      split at hadvance
      · next hphase =>
          cases hadvance
          exact .topUp failure hphase
      · cases hadvance
  | gasConfirmed =>
      simp only [SweepCall.advance] at hadvance
      split at hadvance
      · next hphase =>
          split at hadvance
          · cases hadvance
            exact .gasConfirmed hphase
          · cases hadvance
      · cases hadvance
  | gasUnconfirmed failure =>
      simp only [SweepCall.advance] at hadvance
      split at hadvance
      · next hphase =>
          cases hadvance
          exact .gasUnconfirmed failure hphase
      · cases hadvance
  | sweep failure =>
      simp only [SweepCall.advance] at hadvance
      split at hadvance
      · next hphase =>
          cases hadvance
          exact .sweep failure hphase
      · cases hadvance
  | confirmed =>
      simp only [SweepCall.advance] at hadvance
      split at hadvance
      · next hphase =>
          split at hadvance
          · next hconfirmed =>
              cases hadvance
              exact .confirmed hphase hconfirmed
          · cases hadvance
      · cases hadvance
  | unconfirmed failure =>
      simp only [SweepCall.advance] at hadvance
      split at hadvance
      · next hphase =>
          cases hadvance
          exact .unconfirmed failure hphase
      · cases hadvance
  | retry =>
      simp only [SweepCall.advance] at hadvance
      split at hadvance
      · next hphase =>
          cases hadvance
          exact .retry hphase
      · cases hadvance

end SweepCall

@[simp] theorem SweepCall.fail_address (call : SweepCall Address Cause)
    (error : PlainError Cause) : (call.fail error).address = call.address := by
  unfold SweepCall.fail
  split
  · rfl
  · rfl

/-- A call stays with its address. -/
theorem SweepCall.address_of_advances {cfg : SweepConfig}
    {chain : SweepChain Address} {call after : SweepCall Address Cause}
    {step : SweepStep Cause}
    (hadvances : call.Advances cfg chain step after) :
    after.address = call.address := by
  cases hadvances with
  | readHopr failure hphase =>
      cases failure with
      | some failure => exact call.fail_address _
      | none =>
          simp only [SweepCall.readHopr]
          split
          · exact (call.reads _).fail_address _
          · split
            · rfl
            · rfl
  | readXdai failure hphase =>
      cases failure with
      | some failure => exact call.fail_address _
      | none =>
          simp only [SweepCall.readXdai]
          split
          · rfl
          · rfl
  | readPayer failure hphase =>
      cases failure with
      | some failure => exact call.fail_address _
      | none =>
          simp only [SweepCall.readPayer]
          split
          · exact call.fail_address _
          · rfl
  | topUp failure hphase =>
      cases failure with
      | some failure => exact call.fail_address _
      | none => rfl
  | gasUnconfirmed failure hphase => exact call.fail_address _
  | sweep failure hphase =>
      cases failure with
      | some failure => exact call.fail_address _
      | none => rfl
  | unconfirmed failure hphase => exact call.fail_address _
  | _ => rfl

theorem pendingAmount_eq_some {transfers : List Transfer} {transfer : ℕ}
    {amount : HoprBalance} :
    pendingAmount transfers transfer = some amount ↔
      transfers[transfer]? = some ⟨amount, .pending⟩ := by
  unfold pendingAmount
  split
  · next hget => simp [hget]
  · next hother =>
      constructor
      · intro hnone
        cases hnone
      · intro hget
        exact (hother amount hget).elim

namespace PlainSweeps

/-- What one step does to the calls and the chain. -/
inductive Moves [DecidableEq Address] (cfg : SweepConfig)
    (marker : Payload) (state : PlainSweeps Address Cause) :
    SweepAction Address Id Payload Cause → PlainSweeps Address Cause → Prop
  | withdrawDeposit (address : Address) :
      Moves cfg marker state (.withdrawDeposit address) { state with
        calls := state.calls ++ [.withdrawDeposit cfg address] }
  | poolTransfer (dstId : Id) (data : ByteDepositData Id Payload)
      (address : Address) :
      Moves cfg marker state (.poolTransfer dstId data address) { state with
        calls := state.calls ++ [.poolTransfer cfg marker dstId data address] }
  | call {index : ℕ} {step : SweepStep Cause}
      {call after : SweepCall Address Cause}
      (hcall : state.calls[index]? = some call)
      (hadvances : call.Advances cfg state.chain step after) :
      Moves cfg marker state (.call index step) {
        chain := state.chain.noting step after.phase
        calls := state.calls.set index after }
  | landTopUp {index transfer : ℕ} {call : SweepCall Address Cause}
      {amount : HoprBalance} (hcall : state.calls[index]? = some call)
      (hpending : call.topUps[transfer]? = some ⟨amount, .pending⟩)
      (hfunds : amount.wei ≤ state.chain.nodeXdai.wei) :
      Moves cfg marker state (.landTopUp index transfer) {
        chain := { state.chain.update call.address
            (·.receive HoprBalance.zero amount) with
          nodeXdai := state.chain.nodeXdai - amount }
        calls := state.calls.set index { call with
          topUps := call.topUps.set transfer ⟨amount, .landed⟩ } }
  | dropTopUp {index transfer : ℕ} {call : SweepCall Address Cause}
      {amount : HoprBalance} (hcall : state.calls[index]? = some call)
      (hpending : call.topUps[transfer]? = some ⟨amount, .pending⟩) :
      Moves cfg marker state (.dropTopUp index transfer) { state with
        calls := state.calls.set index { call with
          topUps := call.topUps.set transfer ⟨amount, .dropped⟩ } }
  | landSweep {index transfer : ℕ} {call : SweepCall Address Cause}
      {amount : HoprBalance} (gas : XDaiBalance)
      (hcall : state.calls[index]? = some call)
      (hpending : call.sweeps[transfer]? = some ⟨amount, .pending⟩)
      (hfunds : amount.wei ≤
        (state.chain.accounts call.address).hopr.wei) :
      Moves cfg marker state (.landSweep index transfer gas) {
        chain := state.chain.update call.address (·.pay amount gas)
        calls := state.calls.set index { call with
          sweeps := call.sweeps.set transfer ⟨amount, .landed⟩ } }
  | dropSweep {index transfer : ℕ} {call : SweepCall Address Cause}
      {amount : HoprBalance} (hcall : state.calls[index]? = some call)
      (hpending : call.sweeps[transfer]? = some ⟨amount, .pending⟩) :
      Moves cfg marker state (.dropSweep index transfer) { state with
        calls := state.calls.set index { call with
          sweeps := call.sweeps.set transfer ⟨amount, .dropped⟩ } }
  | arrive (address : Address) (hopr : HoprBalance) (xdai : XDaiBalance) :
      Moves cfg marker state (.arrive address hopr xdai) { state with
        chain := state.chain.update address (·.receive hopr xdai) }
  | nodeReceives (xdai : XDaiBalance) :
      Moves cfg marker state (.nodeReceives xdai) { state with
        chain := { state.chain with
          nodeXdai := state.chain.nodeXdai + xdai } }
  | nodeSpends {xdai : XDaiBalance}
      (hfunds : xdai.wei ≤ state.chain.nodeXdai.wei) :
      Moves cfg marker state (.nodeSpends xdai) { state with
        chain := { state.chain with
          nodeXdai := state.chain.nodeXdai - xdai
          spent := state.chain.spent.map (· + xdai.wei) } }

theorem moves_of_next [DecidableEq Address] {cfg : SweepConfig}
    {marker : Payload} {state after : PlainSweeps Address Cause}
    {action : SweepAction Address Id Payload Cause}
    (hnext : state.next cfg marker action = some after) :
    Moves cfg marker state action after := by
  cases action with
  | withdrawDeposit address =>
      cases hnext
      exact .withdrawDeposit address
  | poolTransfer dstId data address =>
      cases hnext
      exact .poolTransfer dstId data address
  | call index step =>
      obtain ⟨call, hcall, hnext⟩ := Option.bind_eq_some_iff.mp hnext
      obtain ⟨stepped, hadvance, hnext⟩ := Option.bind_eq_some_iff.mp hnext
      cases hnext
      exact .call hcall (SweepCall.advances_of_advance hadvance)
  | landTopUp index transfer =>
      obtain ⟨call, hcall, hnext⟩ := Option.bind_eq_some_iff.mp hnext
      obtain ⟨amount, hpending, hnext⟩ := Option.bind_eq_some_iff.mp hnext
      obtain ⟨_, hfunds, hnext⟩ := Option.bind_eq_some_iff.mp hnext
      cases hnext
      exact .landTopUp hcall (pendingAmount_eq_some.mp hpending)
        ((Option.guard_eq_some' _).mp hfunds)
  | dropTopUp index transfer =>
      obtain ⟨call, hcall, hnext⟩ := Option.bind_eq_some_iff.mp hnext
      obtain ⟨amount, hpending, hnext⟩ := Option.bind_eq_some_iff.mp hnext
      cases hnext
      exact .dropTopUp hcall (pendingAmount_eq_some.mp hpending)
  | landSweep index transfer gas =>
      obtain ⟨call, hcall, hnext⟩ := Option.bind_eq_some_iff.mp hnext
      obtain ⟨amount, hpending, hnext⟩ := Option.bind_eq_some_iff.mp hnext
      obtain ⟨_, hfunds, hnext⟩ := Option.bind_eq_some_iff.mp hnext
      obtain ⟨_, _, hnext⟩ := Option.bind_eq_some_iff.mp hnext
      cases hnext
      exact .landSweep gas hcall (pendingAmount_eq_some.mp hpending)
        ((Option.guard_eq_some' _).mp hfunds)
  | dropSweep index transfer =>
      obtain ⟨call, hcall, hnext⟩ := Option.bind_eq_some_iff.mp hnext
      obtain ⟨amount, hpending, hnext⟩ := Option.bind_eq_some_iff.mp hnext
      cases hnext
      exact .dropSweep hcall (pendingAmount_eq_some.mp hpending)
  | arrive address hopr xdai =>
      cases hnext
      exact .arrive address hopr xdai
  | nodeReceives xdai =>
      cases hnext
      exact .nodeReceives xdai
  | nodeSpends xdai =>
      obtain ⟨_, hfunds, hnext⟩ := Option.bind_eq_some_iff.mp hnext
      cases hnext
      exact .nodeSpends ((Option.guard_eq_some' _).mp hfunds)

end PlainSweeps

/-! ## What has left when a call succeeds -/

/-- The balance which an attempt has read and not yet moved. -/
def SweepPhase.carried : SweepPhase Cause → Option HoprBalance
  | .readingXdai balance => some balance
  | .readingPayer balance _ => some balance
  | .toppingUp balance _ => some balance
  | .confirmingGas balance => some balance
  | .sweeping balance => some balance
  | .confirming balance => some balance
  | _ => none

/-- What the address holds arrived after the balance was read, or is part of
`unmoved`. -/
def Since (account : DepositAccount) (arrivedThen unmoved : ℕ) : Prop :=
  account.hopr.wei + arrivedThen ≤ account.arrived + unmoved

/-- The call last read the balance, and it is part of what had arrived. -/
def SweepCall.ReadThen (call : SweepCall Address Cause)
    (balance : HoprBalance) : Prop :=
  call.lastRead = balance ∧ 0 < balance.wei ∧ balance.wei ≤ call.arrivedThen

/-- What a call knows of its address. -/
structure Knows (account : DepositAccount) (call : SweepCall Address Cause) :
    Prop where
  carried : ∀ balance, call.phase.carried = some balance →
    call.ReadThen balance ∧ Since account call.arrivedThen balance.wei
  submitted : ∀ balance, call.phase = .confirming balance →
    ∃ status, call.sweeps.getLast? = some ⟨balance, status⟩ ∧
      (status = .landed → Since account call.arrivedThen 0)
  returned : ∀ balance, call.phase = .returned (.ok balance) →
    call.ReadThen balance ∧
      call.sweeps.getLast? = some ⟨balance, .landed⟩ ∧
      Since account call.arrivedThen 0

/-- The account holds at most what it held, and what arrived since. -/
def Settles (before after : DepositAccount) : Prop :=
  after.hopr.wei + before.arrived ≤ after.arrived + before.hopr.wei

section

variable {cfg : SweepConfig} {chain : SweepChain Address}
  {account later : DepositAccount} {call after : SweepCall Address Cause}

theorem Since.settles {arrivedThen unmoved : ℕ}
    (hsince : Since account arrivedThen unmoved)
    (hsettles : Settles account later) : Since later arrivedThen unmoved := by
  unfold Since Settles at *
  omega

theorem Settles.receive (account : DepositAccount) (hopr : HoprBalance)
    (xdai : XDaiBalance) : Settles account (account.receive hopr xdai) := by
  simp only [Settles, DepositAccount.receive, HoprBalance.add_wei]
  omega

theorem Settles.pay (account : DepositAccount) (hopr : HoprBalance)
    (xdai : XDaiBalance) : Settles account (account.pay hopr xdai) := by
  simp only [Settles, DepositAccount.pay, HoprBalance.sub_wei]
  omega

theorem Knows.settles (hknows : Knows account call)
    (hsettles : Settles account later) : Knows later call where
  carried := by
    intro balance hcarried
    obtain ⟨hread, hsince⟩ := hknows.carried balance hcarried
    exact ⟨hread, hsince.settles hsettles⟩
  submitted := by
    intro balance hphase
    obtain ⟨status, hlast, hlanded⟩ := hknows.submitted balance hphase
    exact ⟨status, hlast, fun h => (hlanded h).settles hsettles⟩
  returned := by
    intro balance hphase
    obtain ⟨hread, hlast, hsince⟩ := hknows.returned balance hphase
    exact ⟨hread, hlast, hsince.settles hsettles⟩

/-- An attempt which carries no balance knows nothing. -/
theorem Knows.of_none (hcarried : call.phase.carried = none)
    (hphase : ∀ balance, call.phase ≠ .returned (.ok balance)) :
    Knows account call where
  carried := by simp [hcarried]
  submitted := by
    intro balance hconfirming
    rw [hconfirming] at hcarried
    cases hcarried
  returned := fun balance hreturned => absurd hreturned (hphase balance)

theorem Knows.fail (call : SweepCall Address Cause) (error : PlainError Cause) :
    Knows account (call.fail error) := by
  unfold SweepCall.fail
  split
  · exact .of_none rfl (by simp)
  · exact .of_none rfl (by simp)

/-- The balance was read, and is not submitted yet. -/
theorem Knows.of_carried {balance : HoprBalance}
    (hcarried : call.phase.carried = some balance)
    (hphase : ∀ other, call.phase ≠ .confirming other)
    (hread : call.ReadThen balance)
    (hsince : Since account call.arrivedThen balance.wei) :
    Knows account call where
  carried := by
    intro other hother
    rw [hcarried, Option.some.injEq] at hother
    exact hother ▸ ⟨hread, hsince⟩
  submitted := fun other hother => absurd hother (hphase other)
  returned := by
    intro other hother
    rw [hother] at hcarried
    cases hcarried

theorem Knows.readHopr (harrived : account.hopr.wei ≤ account.arrived)
    (failure : Option Cause) :
    Knows account (call.readHopr cfg account failure) := by
  cases failure with
  | some failure => exact .fail call _
  | none =>
      have hread : account.hopr.isZero = false →
          (call.reads account).ReadThen account.hopr := by
        intro hzero
        simp only [HoprBalance.isZero, beq_eq_false_iff_ne] at hzero
        exact ⟨rfl, Nat.pos_of_ne_zero hzero, harrived⟩
      have hsince : Since account account.arrived account.hopr.wei := by
        rw [Since, Nat.add_comm]
      simp only [SweepCall.readHopr]
      split
      · exact .fail (call.reads account) _
      · rename_i hzero
        rw [Bool.not_eq_true] at hzero
        split
        · exact .of_carried rfl (by simp) (hread hzero) hsince
        · exact .of_carried rfl (by simp) (hread hzero) hsince

theorem confirmed_iff {transfers : List Transfer} :
    SweepCall.confirmed transfers = true ↔
      ∃ amount, transfers.getLast? = some ⟨amount, .landed⟩ := by
  unfold SweepCall.confirmed
  cases transfers.getLast? with
  | none => simp
  | some last =>
      obtain ⟨amount, status⟩ := last
      simp

/-- Every step of a call keeps what it knows. -/
theorem Knows.advances {step : SweepStep Cause}
    (hknows : Knows (chain.accounts call.address) call)
    (harrived : (chain.accounts call.address).hopr.wei ≤
      (chain.accounts call.address).arrived)
    (hadvances : call.Advances cfg chain step after) :
    Knows (chain.accounts call.address) after := by
  have hcarried : ∀ balance, call.phase.carried = some balance →
      call.ReadThen balance ∧
        Since (chain.accounts call.address) call.arrivedThen balance.wei :=
    hknows.carried
  cases hadvances with
  | readHopr failure hphase => exact .readHopr harrived failure
  | readXdai failure hphase =>
      cases failure with
      | some failure => exact .fail call _
      | none =>
          obtain ⟨hread, hsince⟩ := hcarried _ (by rw [hphase]; rfl)
          simp only [SweepCall.readXdai]
          split
          · exact .of_carried rfl (by simp) hread hsince
          · exact .of_carried rfl (by simp) hread hsince
  | readPayer failure hphase =>
      cases failure with
      | some failure => exact .fail call _
      | none =>
          obtain ⟨hread, hsince⟩ := hcarried _ (by rw [hphase]; rfl)
          simp only [SweepCall.readPayer]
          split
          · exact .fail call _
          · exact .of_carried rfl (by simp) hread hsince
  | topUp failure hphase =>
      cases failure with
      | some failure => exact .fail call _
      | none =>
          obtain ⟨hread, hsince⟩ := hcarried _ (by rw [hphase]; rfl)
          exact .of_carried rfl (by simp [SweepCall.topUp]) hread hsince
  | gasConfirmed hphase =>
      obtain ⟨hread, hsince⟩ := hcarried _ (by rw [hphase]; rfl)
      exact .of_carried rfl (by simp) hread hsince
  | gasUnconfirmed failure hphase => exact .fail call _
  | sweep failure hphase =>
      cases failure with
      | some failure => exact .fail call _
      | none =>
          have hread := hcarried _ (by rw [hphase]; rfl)
          constructor
          · rintro balance ⟨_⟩
            exact hread
          · rintro balance ⟨_⟩
            refine ⟨.pending, by simp [SweepCall.sweep], ?_⟩
            intro hlanded
            cases hlanded
          · rintro balance ⟨_⟩
  | confirmed hphase hconfirmed =>
      obtain ⟨hread, _⟩ := hcarried _ (by rw [hphase]; rfl)
      obtain ⟨status, hlast, hlanded⟩ := hknows.submitted _ hphase
      obtain ⟨amount, hconfirmed⟩ := confirmed_iff.mp hconfirmed
      rw [hlast, Option.some.injEq, Transfer.mk.injEq] at hconfirmed
      constructor
      · rintro balance ⟨_⟩
      · rintro balance ⟨_⟩
      · rintro balance ⟨_⟩
        rw [hconfirmed.2] at hlast
        exact ⟨hread, hlast, hlanded hconfirmed.2⟩
  | unconfirmed failure hphase => exact .fail call _
  | retry hphase => exact .of_none rfl (by simp)

theorem Settles.refl (account : DepositAccount) : Settles account account := by
  unfold Settles
  omega

theorem settles_update [DecidableEq Address]
    {change : DepositAccount → DepositAccount}
    (hchange : ∀ account, Settles account (change account))
    (address other : Address) :
    Settles (chain.accounts other)
      ((chain.update address change).accounts other) := by
  by_cases heq : other = address
  · subst heq
    simpa [SweepChain.update] using hchange (chain.accounts other)
  · simpa [SweepChain.update, Function.update_of_ne heq] using
      Settles.refl (chain.accounts other)

/-- A transfer which is settled stays the last one. -/
theorem getLast?_set_of_pending {transfers : List Transfer} {transfer : ℕ}
    {amount balance : HoprBalance}
    (hlast : transfers.getLast? = some ⟨balance, .landed⟩)
    (hpending : transfers[transfer]? = some ⟨amount, .pending⟩)
    (settled : Transfer) :
    (transfers.set transfer settled).getLast? = some ⟨balance, .landed⟩ := by
  rw [List.getLast?_eq_getElem?] at hlast ⊢
  have hne : transfer ≠ transfers.length - 1 := by
    rintro rfl
    rw [hpending] at hlast
    cases hlast
  rw [List.length_set, List.getElem?_set_ne hne]
  exact hlast

/-- A sweep of the call lands, and takes its amount from the address. -/
theorem Knows.landSweep {transfer : ℕ} {amount : HoprBalance}
    (gas : XDaiBalance) (hknows : Knows account call)
    (hpending : call.sweeps[transfer]? = some ⟨amount, .pending⟩)
    (hfunds : amount.wei ≤ account.hopr.wei) :
    Knows (account.pay amount gas) { call with
      sweeps := call.sweeps.set transfer ⟨amount, .landed⟩ } := by
  have hpaid := hknows.settles (Settles.pay account amount gas)
  refine ⟨hpaid.carried, ?_, fun balance hphase => ?_⟩
  case refine_2 =>
    obtain ⟨hread, hlast, hsince⟩ := hpaid.returned balance hphase
    exact ⟨hread, getLast?_set_of_pending hlast hpending _, hsince⟩
  intro balance hphase
  obtain ⟨status, hlast, hlanded⟩ := hpaid.submitted balance hphase
  rw [List.getLast?_eq_getElem?] at hlast
  by_cases heq : transfer = call.sweeps.length - 1
  · subst heq
    rw [hpending, Option.some.injEq, Transfer.mk.injEq] at hlast
    obtain ⟨rfl, _⟩ := hlast
    obtain ⟨hlt, _⟩ := List.getElem?_eq_some_iff.mp hpending
    refine ⟨.landed, ?_, fun _ => ?_⟩
    · rw [List.getLast?_eq_getElem?, List.length_set,
        List.getElem?_set_self hlt]
    · obtain ⟨_, hsince⟩ := hknows.carried amount (by rw [hphase]; rfl)
      simp only [Since, DepositAccount.pay, HoprBalance.sub_wei] at hsince ⊢
      omega
  · refine ⟨status, ?_, hlanded⟩
    rw [List.getLast?_eq_getElem?, List.length_set, List.getElem?_set_ne heq]
    exact hlast

/-- A dropped sweep did not land. -/
theorem Knows.dropSweep {transfer : ℕ} {amount : HoprBalance}
    (hknows : Knows account call)
    (hpending : call.sweeps[transfer]? = some ⟨amount, .pending⟩) :
    Knows account { call with
      sweeps := call.sweeps.set transfer ⟨amount, .dropped⟩ } := by
  refine ⟨hknows.carried, ?_, fun balance hphase => ?_⟩
  case refine_2 =>
    obtain ⟨hread, hlast, hsince⟩ := hknows.returned balance hphase
    exact ⟨hread, getLast?_set_of_pending hlast hpending _, hsince⟩
  intro balance hphase
  obtain ⟨status, hlast, hlanded⟩ := hknows.submitted balance hphase
  rw [List.getLast?_eq_getElem?] at hlast
  by_cases heq : transfer = call.sweeps.length - 1
  · subst heq
    rw [hpending, Option.some.injEq, Transfer.mk.injEq] at hlast
    obtain ⟨rfl, _⟩ := hlast
    obtain ⟨hlt, _⟩ := List.getElem?_eq_some_iff.mp hpending
    refine ⟨.dropped, ?_, fun h => by cases h⟩
    rw [List.getLast?_eq_getElem?, List.length_set,
      List.getElem?_set_self hlt]
  · refine ⟨status, ?_, hlanded⟩
    rw [List.getLast?_eq_getElem?, List.length_set, List.getElem?_set_ne heq]
    exact hlast

end

/-- What the calls know of their addresses. -/
structure PlainSweeps.Informed (state : PlainSweeps Address Cause) :
    Prop where
  arrived : ∀ address, (state.chain.accounts address).hopr.wei ≤
    (state.chain.accounts address).arrived
  knows : ∀ call ∈ state.calls,
    Knows (state.chain.accounts call.address) call

namespace PlainSweeps.Informed

variable {cfg : SweepConfig} {marker : Payload}
  {state after : PlainSweeps Address Cause} {call : SweepCall Address Cause}

/-- Accounts settle, and one call knows what it knew or more. -/
theorem settle {chain : SweepChain Address} {index : ℕ}
    {stepped : SweepCall Address Cause} (hinformed : state.Informed)
    (hsettles : ∀ address, Settles (state.chain.accounts address)
      (chain.accounts address))
    (hknows : Knows (chain.accounts stepped.address) stepped) :
    Informed ⟨chain, state.calls.set index stepped⟩ where
  arrived := by
    intro address
    have harrived := hinformed.arrived address
    have hsettled := hsettles address
    unfold Settles at hsettled
    simp only
    omega
  knows := by
    intro other hother
    rcases List.mem_or_eq_of_mem_set hother with hold | heq
    · exact (hinformed.knows other hold).settles (hsettles other.address)
    · rw [heq]
      exact hknows

theorem append (hinformed : state.Informed)
    (hknows : Knows (state.chain.accounts call.address) call) :
    Informed { state with calls := state.calls ++ [call] } where
  arrived := hinformed.arrived
  knows := by
    intro other hother
    rcases List.mem_append.mp hother with hold | hnew
    · exact hinformed.knows other hold
    · rw [List.mem_singleton.mp hnew]
      exact hknows

theorem next [DecidableEq Address]
    {action : SweepAction Address Id Payload Cause} (hinformed : state.Informed)
    (hnext : state.next cfg marker action = some after) : after.Informed := by
  cases moves_of_next hnext with
  | withdrawDeposit address => exact hinformed.append (.of_none rfl (by
      simp [SweepCall.withdrawDeposit]))
  | poolTransfer dstId data address =>
      apply hinformed.append
      unfold SweepCall.poolTransfer
      split
      · exact .of_none rfl (by simp)
      · exact .of_none rfl (by simp [SweepCall.withdrawDeposit])
  | @call index step call stepped hcall hadvances =>
      have hmem := List.mem_of_getElem? hcall
      have haddress : stepped.address = call.address :=
        SweepCall.address_of_advances hadvances
      apply hinformed.settle fun address => by
        rw [SweepChain.noting_accounts]
        exact .refl _
      rw [haddress, SweepChain.noting_accounts]
      exact (hinformed.knows call hmem).advances
        (hinformed.arrived call.address) hadvances
  | @landTopUp index transfer call amount hcall hpending hfunds =>
      have hsettles : ∀ address, Settles (state.chain.accounts address)
          ((state.chain.update call.address
            (·.receive .zero amount)).accounts address) :=
        settles_update (fun account => .receive account _ _) call.address
      have hknows := (hinformed.knows call (List.mem_of_getElem? hcall)).settles
        (hsettles call.address)
      exact hinformed.settle hsettles
        ⟨hknows.carried, hknows.submitted, hknows.returned⟩
  | @dropTopUp index transfer call amount hcall hpending =>
      have hknows := hinformed.knows call (List.mem_of_getElem? hcall)
      exact hinformed.settle (fun address => .refl _)
        ⟨hknows.carried, hknows.submitted, hknows.returned⟩
  | @landSweep index transfer call amount gas hcall hpending hfunds =>
      apply hinformed.settle
        (settles_update (fun account => .pay account amount gas) call.address)
      have hlanded := (hinformed.knows call (List.mem_of_getElem?
        hcall)).landSweep gas hpending hfunds
      simpa [SweepChain.update] using hlanded
  | @dropSweep index transfer call amount hcall hpending =>
      exact hinformed.settle (fun address => .refl _)
        ((hinformed.knows call (List.mem_of_getElem? hcall)).dropSweep
          hpending)
  | arrive address hopr xdai =>
      have hsettles : ∀ other, Settles (state.chain.accounts other)
          ((state.chain.update address
            (·.receive hopr xdai)).accounts other) :=
        settles_update (fun account => .receive account _ _) address
      constructor
      · intro other
        have harrived := hinformed.arrived other
        have hsettled := hsettles other
        unfold Settles at hsettled
        simp only
        omega
      · intro call hcall
        exact (hinformed.knows call hcall).settles (hsettles call.address)
  | nodeReceives xdai => exact ⟨hinformed.arrived, hinformed.knows⟩
  | nodeSpends hfunds => exact ⟨hinformed.arrived, hinformed.knows⟩

end PlainSweeps.Informed

/-- In any run of any number of calls, a call which succeeds has swept the
balance which it last read: its last transfer of it has landed, and whatever
had arrived by then has left the address. -/
theorem sweptBeforeOk [DecidableEq Address] {cfg : SweepConfig}
    {marker : Payload} {nodeXdai : XDaiBalance}
    {state : PlainSweeps Address Cause}
    (hreach : (sweepSystem cfg marker nodeXdai :
      TransitionSystem (PlainSweeps Address Cause)
        (SweepAction Address Id Payload Cause)).Reachable state)
    {call : SweepCall Address Cause} (hcall : call ∈ state.calls)
    {balance : HoprBalance} (hok : call.phase = .returned (.ok balance)) :
    call.lastRead = balance ∧ 0 < balance.wei ∧
      call.sweeps.getLast? = some ⟨balance, .landed⟩ ∧
      (state.chain.accounts call.address).hopr.wei + call.arrivedThen ≤
        (state.chain.accounts call.address).arrived := by
  have hinformed : state.Informed := by
    apply hreach.invariant
    · rintro start ⟨hcalls, _, _, harrived⟩
      refine ⟨harrived, ?_⟩
      intro call hmem
      rw [hcalls] at hmem
      cases hmem
    · intro before action after hbefore hnext
      exact hbefore.next hnext
  obtain ⟨⟨hread, hpositive, _⟩, hlast, hsince⟩ :=
    (hinformed.knows call hcall).returned balance hok
  exact ⟨hread, hpositive, hlast, hsince⟩

/-! ## A deposit which lands after the first attempt -/

/-- Ten wei of gas a sweep, a reserve of twenty, and one retry. -/
def oneRetry : SweepConfig where
  gasXdaiPerSweep := .saturating 10
  minNodeXdaiReserve := .saturating 20
  maxSweepRetries := 1

abbrev SweepAct := SweepAction ℕ ℕ Unit Unit

def noDeposits : PlainSweeps ℕ Unit where
  chain :=
    { accounts := fun _ => ⟨.zero, .zero, 0⟩
      nodeXdai := .saturating 30
      spent := none }
  calls := []

theorem noDeposits_init :
    (sweepSystem oneRetry () (.saturating 30) :
      TransitionSystem (PlainSweeps ℕ Unit) SweepAct).init noDeposits :=
  ⟨rfl, rfl, rfl, fun _ => le_rfl⟩

/-- A call up to the check of its top-up. -/
def untilCheck (index : ℕ) : List SweepAct :=
  [.call index (.readHopr none), .call index (.readXdai none)]

/-- The first attempt finds the address empty. -/
def lateDeposit : List SweepAct :=
  [.withdrawDeposit 0, .call 0 (.readHopr none), .arrive 0 (.saturating 7)
    .zero, .call 0 .retry] ++ untilCheck 0 ++
  [.call 0 (.readPayer none), .call 0 (.topUp none), .landTopUp 0 0,
    .call 0 .gasConfirmed, .call 0 (.sweep none),
    .landSweep 0 0 (.saturating 1), .call 0 .confirmed]

theorem sweptBeforeOk_lateDeposit :
    ∃ (state : PlainSweeps ℕ Unit) (call : SweepCall ℕ Unit),
      call ∈ state.calls ∧ call.phase = .returned (.ok (.saturating 7)) ∧
        call.sweeps.getLast? = some ⟨.saturating 7, .landed⟩ ∧
        (state.chain.accounts call.address).hopr.wei + call.arrivedThen ≤
          (state.chain.accounts call.address).arrived := by
  have hreach := (TransitionSystem.Reachable.init noDeposits_init).run
    lateDeposit rfl
  exact ⟨_, _, List.mem_cons_self, rfl,
    (sweptBeforeOk hreach List.mem_cons_self rfl).2.2⟩

end HoprStrategy.Plain
