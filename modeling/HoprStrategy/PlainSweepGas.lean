import HoprStrategy.PlainSweep

/-!
# The node's reserve under sweeps

A top-up is checked against the node's balance before it is sent, and nothing
holds that balance in between.  Top-ups which are under way at once therefore
draw on the reserve together.  How far is bounded by how many they are, and
counts anew from every check which passes.
-/

namespace HoprStrategy.Plain

open Library

variable {Address Id Payload Cause : Type} [DecidableEq Id]
  [DecidableEq Payload]

/-! ## What is under way -/

def Transfer.owed (transfer : Transfer) : ℕ :=
  if transfer.status = .pending then transfer.amount.wei else 0

/-- The top-up which was checked and not yet sent. -/
def SweepPhase.promised : SweepPhase Cause → ℕ
  | .toppingUp _ deficit => deficit.wei
  | _ => 0

def SweepPhase.promises : SweepPhase Cause → ℕ
  | .toppingUp _ _ => 1
  | _ => 0

namespace SweepCall

/-- What the top-ups under way will take from the node. -/
def owed (call : SweepCall Address Cause) : ℕ :=
  held Transfer.owed call.topUps + call.phase.promised

/-- How many top-ups are under way. -/
def underWay (call : SweepCall Address Cause) : ℕ :=
  call.topUps.countP (·.status = .pending) + call.phase.promises

/-- All the call has sent to its address, or tried to. -/
def sent (call : SweepCall Address Cause) : ℕ :=
  held (·.amount.wei) call.topUps

end SweepCall

/-- The condition on a step: where a top-up is checked, fewer than `width` are
under way. -/
def AtMost (width : ℕ) (state : PlainSweeps Address Cause) :
    SweepAction Address Id Payload Cause → Prop
  | .call _ (.readPayer none) =>
      held SweepCall.underWay state.calls < width
  | _ => True

/-- The reserve, as far as the check can see it: the sum of a deficit and the
reserve saturates. -/
def SweepConfig.floor (cfg : SweepConfig) : ℕ :=
  min cfg.minNodeXdaiReserve.wei (2 ^ 256 - 1 - cfg.gasXdaiPerSweep.wei)

/-- The attempt has not sent a top-up yet, or is over. -/
def SweepPhase.Fresh : SweepPhase Cause → Prop
  | .readingHopr | .readingXdai _ | .readingPayer _ _ | .toppingUp _ _
  | .backingOff => True
  | _ => False

/-- Every top-up is a part of one sweep's gas, and every attempt makes one at
most. -/
structure SweepCall.Modest (cfg : SweepConfig)
    (call : SweepCall Address Cause) : Prop where
  amounts : ∀ transfer ∈ call.topUps,
    transfer.amount.wei ≤ cfg.gasXdaiPerSweep.wei
  checking : ∀ balance deficit, call.phase = .readingPayer balance deficit →
    deficit.wei ≤ cfg.gasXdaiPerSweep.wei
  checked : ∀ balance deficit, call.phase = .toppingUp balance deficit →
    deficit.wei ≤ cfg.gasXdaiPerSweep.wei
  fresh : call.phase.Fresh →
    call.topUps.length + call.retriesLeft ≤ cfg.maxSweepRetries
  attempts : call.topUps.length + call.retriesLeft ≤ cfg.maxSweepRetries + 1

namespace SweepCall

variable {cfg : SweepConfig} {chain : SweepChain Address}
  {call after : SweepCall Address Cause}

theorem held_owed_le {cfg : SweepConfig} (transfers : List Transfer)
    (hamounts : ∀ transfer ∈ transfers,
      transfer.amount.wei ≤ cfg.gasXdaiPerSweep.wei) :
    held Transfer.owed transfers ≤
      cfg.gasXdaiPerSweep.wei * transfers.countP (·.status = .pending) := by
  induction transfers with
  | nil => simp
  | cons transfer rest ih =>
      have hrest := ih fun other hother =>
        hamounts other (List.mem_cons_of_mem _ hother)
      have hfirst := hamounts transfer List.mem_cons_self
      simp only [held, List.map_cons, List.sum_cons, List.countP_cons]
      simp only [held] at hrest
      by_cases hpending : transfer.status = .pending
      · simp only [Transfer.owed, hpending, if_true, decide_true,
          Nat.mul_add, Nat.mul_one]
        omega
      · simp only [Transfer.owed, hpending, if_false, decide_false,
          Nat.zero_add, Bool.false_eq_true, Nat.add_zero]
        exact hrest

theorem Modest.owed_le (hmodest : call.Modest cfg) :
    call.owed ≤ cfg.gasXdaiPerSweep.wei * call.underWay := by
  have htopUps := held_owed_le call.topUps hmodest.amounts
  have hpromised : call.phase.promised ≤
      cfg.gasXdaiPerSweep.wei * call.phase.promises := by
    cases hphase : call.phase with
    | toppingUp balance deficit =>
        simpa [SweepPhase.promised, SweepPhase.promises] using
          hmodest.checked balance deficit hphase
    | _ => simp [SweepPhase.promised]
  rw [owed, underWay, Nat.mul_add]
  omega

theorem Modest.sent_le (hmodest : call.Modest cfg) :
    call.sent ≤ (cfg.maxSweepRetries + 1) * cfg.gasXdaiPerSweep.wei := by
  have hsum : call.sent ≤ call.topUps.length * cfg.gasXdaiPerSweep.wei := by
    have hcard := List.sum_le_card_nsmul
      (call.topUps.map (·.amount.wei)) cfg.gasXdaiPerSweep.wei (by
        intro amount hamount
        obtain ⟨transfer, hmem, rfl⟩ := List.mem_map.mp hamount
        exact hmodest.amounts transfer hmem)
    simpa [sent, held] using hcard
  have hlength : call.topUps.length ≤ cfg.maxSweepRetries + 1 := by
    have := hmodest.attempts
    omega
  exact hsum.trans (Nat.mul_le_mul_right _ hlength)

theorem Modest.fail (hmodest : call.Modest cfg) (error : PlainError Cause) :
    (call.fail error).Modest cfg := by
  have hattempts := hmodest.attempts
  unfold SweepCall.fail
  split
  · exact ⟨hmodest.amounts, by simp, by simp, by simp [SweepPhase.Fresh],
      hattempts⟩
  · next left hleft =>
      refine ⟨hmodest.amounts, by simp, by simp, fun _ => ?_, ?_⟩
      · simp only
        omega
      · simp only
        omega

/-- The attempt goes on to a step which checks nothing. -/
theorem Modest.goOn (hmodest : call.Modest cfg) {phase : SweepPhase Cause}
    (hchecking : ∀ balance deficit, phase ≠ .readingPayer balance deficit)
    (hchecked : ∀ balance deficit, phase ≠ .toppingUp balance deficit)
    (hfresh : phase.Fresh → call.phase.Fresh) (lastRead : HoprBalance)
    (arrivedThen : ℕ) (sweeps : List Transfer) :
    Modest cfg { call with
      phase := phase
      lastRead := lastRead
      arrivedThen := arrivedThen
      sweeps := sweeps } where
  amounts := hmodest.amounts
  checking := fun balance deficit h => absurd h (hchecking balance deficit)
  checked := fun balance deficit h => absurd h (hchecked balance deficit)
  fresh := fun h => hmodest.fresh (hfresh h)
  attempts := hmodest.attempts

theorem Modest.advances {step : SweepStep Cause} (hmodest : call.Modest cfg)
    (hadvances : call.Advances cfg chain step after) : after.Modest cfg := by
  cases hadvances with
  | readHopr failure hphase =>
      cases failure with
      | some failure => exact hmodest.fail _
      | none =>
          simp only [SweepCall.readHopr]
          split
          · exact (hmodest.goOn (by simp [hphase]) (by simp [hphase]) id
              _ _ _).fail _
          · split
            · exact hmodest.goOn (by simp) (by simp)
                (by simp [SweepPhase.Fresh]) _ _ _
            · exact hmodest.goOn (by simp) (by simp)
                (by simp [SweepPhase.Fresh, hphase]) _ _ _
  | readXdai failure hphase =>
      cases failure with
      | some failure => exact hmodest.fail _
      | none =>
          simp only [SweepCall.readXdai]
          split
          · exact hmodest.goOn (by simp) (by simp)
              (by simp [SweepPhase.Fresh]) _ _ _
          · have hfresh := hmodest.fresh (by simp [hphase, SweepPhase.Fresh])
            refine ⟨hmodest.amounts, ?_, by simp, fun _ => hfresh,
              hmodest.attempts⟩
            rintro _ _ ⟨_⟩
            exact Nat.sub_le _ _
  | readPayer failure hphase =>
      cases failure with
      | some failure => exact hmodest.fail _
      | none =>
          simp only [SweepCall.readPayer]
          split
          · exact hmodest.fail _
          · have hfresh := hmodest.fresh (by simp [hphase, SweepPhase.Fresh])
            refine ⟨hmodest.amounts, by simp, ?_, fun _ => hfresh,
              hmodest.attempts⟩
            rintro _ _ ⟨_⟩
            exact hmodest.checking _ _ hphase
  | topUp failure hphase =>
      cases failure with
      | some failure => exact hmodest.fail _
      | none =>
          have hfresh := hmodest.fresh (by simp [hphase, SweepPhase.Fresh])
          refine ⟨?_, by simp [SweepCall.topUp], by simp [SweepCall.topUp],
            by simp [SweepCall.topUp, SweepPhase.Fresh], ?_⟩
          · intro transfer htransfer
            rcases List.mem_append.mp htransfer with hold | hnew
            · exact hmodest.amounts transfer hold
            · rw [List.mem_singleton.mp hnew]
              exact hmodest.checked _ _ hphase
          · simp only [SweepCall.topUp, List.length_append,
              List.length_singleton]
            omega
  | gasConfirmed hphase =>
      exact hmodest.goOn (by simp) (by simp) (by simp [SweepPhase.Fresh]) _ _ _
  | gasUnconfirmed failure hphase => exact hmodest.fail _
  | sweep failure hphase =>
      cases failure with
      | some failure => exact hmodest.fail _
      | none =>
          exact hmodest.goOn (by simp) (by simp)
            (by simp [SweepPhase.Fresh]) _ _ _
  | confirmed hphase hconfirmed =>
      exact hmodest.goOn (by simp) (by simp) (by simp [SweepPhase.Fresh]) _ _ _
  | unconfirmed failure hphase => exact hmodest.fail _
  | retry hphase =>
      exact hmodest.goOn (by simp) (by simp)
        (by simp [SweepPhase.Fresh, hphase]) _ _ _

/-! ## What a step adds to the top-ups under way -/

/-- A step which promises no top-up. -/
structure Unpromising (chain : SweepChain Address)
    (call : SweepCall Address Cause) (step : SweepStep Cause)
    (after : SweepCall Address Cause) : Prop where
  noted : chain.noting step after.phase = chain
  owed : after.owed ≤ call.owed
  promises : after.phase.promises = 0
  topUps : after.topUps = call.topUps ∨ call.phase.promises ≠ 0

theorem noting_of_ne {step : SweepStep Cause} {phase : SweepPhase Cause}
    (hphase : ∀ balance deficit, phase ≠ .toppingUp balance deficit) :
    chain.noting step phase = chain := by
  unfold SweepChain.noting
  split
  · exact absurd rfl (hphase _ _)
  · rfl

theorem Unpromising.of_topUps {step : SweepStep Cause}
    (htopUps : after.topUps = call.topUps)
    (hphase : ∀ balance deficit, after.phase ≠ .toppingUp balance deficit) :
    Unpromising chain call step after := by
  have hnothing : after.phase.promised = 0 ∧ after.phase.promises = 0 := by
    cases hafter : after.phase with
    | toppingUp balance deficit => exact absurd hafter (hphase balance deficit)
    | _ => exact ⟨rfl, rfl⟩
  refine ⟨noting_of_ne hphase, ?_, hnothing.2, Or.inl htopUps⟩
  unfold SweepCall.owed
  rw [htopUps, hnothing.1]
  exact Nat.le_add_right _ _

theorem Unpromising.fail {step : SweepStep Cause} {read : SweepCall Address Cause}
    (error : PlainError Cause) (htopUps : read.topUps = call.topUps) :
    Unpromising chain call step (read.fail error) := by
  unfold SweepCall.fail
  split
  · exact .of_topUps htopUps (by simp)
  · exact .of_topUps htopUps (by simp)

/-- A check which passes is the only step that adds to the top-ups under way,
and it saw the node hold the deficit and the reserve. -/
theorem owed_advances {step : SweepStep Cause} (hmodest : call.Modest cfg)
    (hadvances : call.Advances cfg chain step after) :
    Unpromising chain call step after ∨
      step = .readPayer none ∧
        chain.noting step after.phase = { chain with spent := some 0 } ∧
        ∃ deficit, after.owed = call.owed + deficit ∧
          deficit + cfg.floor ≤ chain.nodeXdai.wei := by
  cases hadvances with
  | readHopr failure hphase =>
      left
      cases failure with
      | some failure => exact .fail _ rfl
      | none =>
          simp only [SweepCall.readHopr]
          split
          · exact .fail _ rfl
          · split
            · exact .of_topUps rfl (by simp)
            · exact .of_topUps rfl (by simp)
  | readXdai failure hphase =>
      left
      cases failure with
      | some failure => exact .fail _ rfl
      | none =>
          simp only [SweepCall.readXdai]
          split
          · exact .of_topUps rfl (by simp)
          · exact .of_topUps rfl (by simp)
  | @readPayer failure balance deficit hphase =>
      cases failure with
      | some failure => exact Or.inl (.fail _ rfl)
      | none =>
          simp only [SweepCall.readPayer]
          split
          · exact Or.inl (.fail _ rfl)
          · next hpayer =>
              have hdeficit := hmodest.checking balance deficit hphase
              refine Or.inr ⟨by simp, rfl, deficit.wei, ?_, ?_⟩
              · simp [owed, hphase, SweepPhase.promised]
              · rw [HoprBalance.lt_iff, HoprBalance.add_wei] at hpayer
                unfold SweepConfig.floor
                have hbound := cfg.gasXdaiPerSweep.bound
                omega
  | @topUp failure balance deficit hphase =>
      left
      cases failure with
      | some failure => exact .fail _ rfl
      | none =>
          refine ⟨rfl, ?_, rfl, Or.inr ?_⟩
          · apply le_of_eq
            simp [owed, SweepCall.topUp, hphase, SweepPhase.promised,
              Transfer.owed]
          · rw [hphase]
            exact Nat.one_ne_zero
  | gasConfirmed hphase => exact Or.inl (.of_topUps rfl (by simp))
  | gasUnconfirmed failure hphase => exact Or.inl (.fail _ rfl)
  | sweep failure hphase =>
      left
      cases failure with
      | some failure => exact .fail _ rfl
      | none => exact .of_topUps rfl (by simp [SweepCall.sweep])
  | confirmed hphase hconfirmed => exact Or.inl (.of_topUps rfl (by simp))
  | unconfirmed failure hphase => exact Or.inl (.fail _ rfl)
  | retry hphase => exact Or.inl (.of_topUps rfl (by simp))

/-- A top-up which lands or is dropped is not under way any more. -/
theorem owed_set {transfer : ℕ} {amount : XDaiBalance}
    (status : TransferStatus) (hstatus : status ≠ .pending)
    (hpending : call.topUps[transfer]? = some ⟨amount, .pending⟩) :
    ({ call with topUps := call.topUps.set transfer ⟨amount, status⟩ } :
      SweepCall Address Cause).owed + amount.wei = call.owed := by
  have hset := held_set Transfer.owed ⟨amount, status⟩ hpending
  simp only [Transfer.owed, hstatus, if_true, if_false] at hset
  simp only [owed]
  have hnow : held Transfer.owed (call.topUps.set transfer ⟨amount, status⟩) +
      amount.wei = held Transfer.owed call.topUps := by
    simpa [Transfer.owed] using hset
  omega

theorem Modest.set {transfer : ℕ} {amount : XDaiBalance}
    {status : TransferStatus} (hmodest : call.Modest cfg)
    (hpending : call.topUps[transfer]? = some ⟨amount, .pending⟩) :
    Modest cfg { call with
      topUps := call.topUps.set transfer ⟨amount, status⟩ } where
  amounts := by
    intro other hother
    rcases List.mem_or_eq_of_mem_set hother with hold | heq
    · exact hmodest.amounts other hold
    · rw [heq]
      exact hmodest.amounts ⟨amount, .pending⟩
        (List.mem_of_getElem? hpending)
  checking := hmodest.checking
  checked := hmodest.checked
  fresh := by simpa using hmodest.fresh
  attempts := by simpa using hmodest.attempts

end SweepCall

/-! ## The reserve -/

/-- Since a check has passed, the node can pay what is under way and keep its
reserve, but for the top-ups which drew on it together and what it has spent
itself.  Before that, nothing is under way. -/
structure Reserved (cfg : SweepConfig) (width : ℕ)
    (state : PlainSweeps Address Cause) : Prop where
  floor : ∀ spent ∈ state.chain.spent,
    held SweepCall.owed state.calls + cfg.floor ≤ state.chain.nodeXdai.wei +
      (width - 1) * cfg.gasXdaiPerSweep.wei + spent
  unsent : state.chain.spent = none → ∀ call ∈ state.calls,
    call.topUps = [] ∧ call.phase.promises = 0
  modest : ∀ call ∈ state.calls, call.Modest cfg

namespace Reserved

variable {cfg : SweepConfig} {width : ℕ} {marker : Payload}
  {state after : PlainSweeps Address Cause}

/-- One call changes, and what it owes is paid or given up. -/
theorem settle {chain : SweepChain Address} {index : ℕ}
    {call stepped : SweepCall Address Cause}
    (hreserved : Reserved cfg width state)
    (hcall : state.calls[index]? = some call)
    (hmodest : stepped.Modest cfg) (hspent : chain.spent = state.chain.spent)
    (hpaid : stepped.owed + state.chain.nodeXdai.wei ≤
      call.owed + chain.nodeXdai.wei)
    (hunsent : call.topUps = [] → call.phase.promises = 0 →
      stepped.topUps = [] ∧ stepped.phase.promises = 0) :
    Reserved cfg width ⟨chain, state.calls.set index stepped⟩ where
  floor := by
    intro spent hmem
    simp only [hspent] at hmem
    have hset := held_set SweepCall.owed stepped hcall
    have hfloor := hreserved.floor spent hmem
    simp only
    omega
  unsent := by
    intro hnone other hother
    simp only [hspent] at hnone
    rcases List.mem_or_eq_of_mem_set hother with hold | heq
    · exact hreserved.unsent hnone other hold
    · obtain ⟨htopUps, hpromises⟩ :=
        hreserved.unsent hnone call (List.mem_of_getElem? hcall)
      rw [heq]
      exact hunsent htopUps hpromises
  modest := by
    intro other hother
    rcases List.mem_or_eq_of_mem_set hother with hold | heq
    · exact hreserved.modest other hold
    · rw [heq]
      exact hmodest

theorem held_owed_le_underWay (hreserved : Reserved cfg width state) :
    held SweepCall.owed state.calls ≤
      cfg.gasXdaiPerSweep.wei * held SweepCall.underWay state.calls := by
  have hmodest := hreserved.modest
  generalize state.calls = calls at hmodest
  induction calls with
  | nil => simp
  | cons call rest ih =>
      have hrest := ih fun other hother =>
        hmodest other (List.mem_cons_of_mem _ hother)
      have hfirst := (hmodest call List.mem_cons_self).owed_le
      simp only [held, List.map_cons, List.sum_cons, Nat.mul_add] at hrest ⊢
      omega

/-- A check passes: it saw the node hold the deficit and the reserve. -/
theorem check {index : ℕ} {call stepped : SweepCall Address Cause}
    {deficit : ℕ} (hreserved : Reserved cfg width state)
    (hcall : state.calls[index]? = some call)
    (hmodest : stepped.Modest cfg)
    (howed : stepped.owed = call.owed + deficit)
    (hnode : deficit + cfg.floor ≤ state.chain.nodeXdai.wei)
    (hwidth : held SweepCall.underWay state.calls < width) :
    Reserved cfg width
      ⟨{ state.chain with spent := some 0 },
        state.calls.set index stepped⟩ where
  floor := by
    intro spent _
    have hset := held_set SweepCall.owed stepped hcall
    have hothers : held SweepCall.owed state.calls ≤
        (width - 1) * cfg.gasXdaiPerSweep.wei := by
      refine hreserved.held_owed_le_underWay.trans ?_
      rw [Nat.mul_comm]
      exact Nat.mul_le_mul_right _ (Nat.le_sub_one_of_lt hwidth)
    simp only
    omega
  unsent := by
    intro hnone
    cases hnone
  modest := by
    intro other hother
    rcases List.mem_or_eq_of_mem_set hother with hold | heq
    · exact hreserved.modest other hold
    · rw [heq]
      exact hmodest

theorem append {call : SweepCall Address Cause}
    (hreserved : Reserved cfg width state) (hmodest : call.Modest cfg)
    (htopUps : call.topUps = [])
    (hphase : call.phase.promised = 0 ∧ call.phase.promises = 0) :
    Reserved cfg width { state with calls := state.calls ++ [call] } where
  floor := by
    intro spent hmem
    have hfloor := hreserved.floor spent hmem
    have howed : call.owed = 0 := by
      rw [SweepCall.owed, htopUps, hphase.1, held_nil]
    simp only [held_append, held_singleton, howed]
    omega
  unsent := by
    intro hnone other hother
    rcases List.mem_append.mp hother with hold | hnew
    · exact hreserved.unsent hnone other hold
    · rw [List.mem_singleton.mp hnew]
      exact ⟨htopUps, hphase.2⟩
  modest := by
    intro other hother
    rcases List.mem_append.mp hother with hold | hnew
    · exact hreserved.modest other hold
    · rw [List.mem_singleton.mp hnew]
      exact hmodest

omit [DecidableEq Id] [DecidableEq Payload] in
theorem withdrawDeposit_modest (address : Address) :
    (SweepCall.withdrawDeposit cfg address :
      SweepCall Address Cause).Modest cfg := by
  constructor <;> simp [SweepCall.withdrawDeposit]

theorem next [DecidableEq Address]
    {action : SweepAction Address Id Payload Cause}
    (hreserved : Reserved cfg width state)
    (hwidth : AtMost width state action)
    (hnext : state.next cfg marker action = some after) :
    Reserved cfg width after := by
  cases PlainSweeps.moves_of_next hnext with
  | withdrawDeposit address =>
      exact hreserved.append (withdrawDeposit_modest address) rfl ⟨rfl, rfl⟩
  | poolTransfer dstId data address =>
      have hmodest : (SweepCall.withdrawDeposit cfg address :
        SweepCall Address Cause).Modest cfg := withdrawDeposit_modest address
      have hattempts := hmodest.attempts
      unfold SweepCall.poolTransfer
      split
      · refine hreserved.append ?_ rfl ⟨rfl, rfl⟩
        exact ⟨hmodest.amounts, by simp, by simp, by simp [SweepPhase.Fresh],
          hattempts⟩
      · exact hreserved.append hmodest rfl ⟨rfl, rfl⟩
  | @call index step call stepped hcall hadvances =>
      have hmodest := hreserved.modest call (List.mem_of_getElem? hcall)
      rcases SweepCall.owed_advances hmodest hadvances with
        hquiet | ⟨rfl, hnoted, deficit, howed, hnode⟩
      · rw [hquiet.noted]
        have howed := hquiet.owed
        refine hreserved.settle hcall (hmodest.advances hadvances) rfl
          (by omega) fun htopUps hpromises => ⟨?_, hquiet.promises⟩
        rcases hquiet.topUps with hsame | hpromised
        · rw [hsame, htopUps]
        · exact absurd hpromises hpromised
      · rw [hnoted]
        exact hreserved.check hcall (hmodest.advances hadvances) howed hnode
          hwidth
  | @landTopUp index transfer call amount hcall hpending hfunds =>
      have hmodest := hreserved.modest call (List.mem_of_getElem? hcall)
      have howed := SweepCall.owed_set .landed (by simp) hpending
      refine hreserved.settle hcall (hmodest.set hpending) rfl ?_ ?_
      · simp only [HoprBalance.sub_wei]
        omega
      · intro htopUps
        rw [htopUps] at hpending
        cases hpending
  | @dropTopUp index transfer call amount hcall hpending =>
      have hmodest := hreserved.modest call (List.mem_of_getElem? hcall)
      have howed := SweepCall.owed_set .dropped (by simp) hpending
      refine hreserved.settle hcall (hmodest.set hpending) rfl ?_ ?_
      · omega
      · intro htopUps
        rw [htopUps] at hpending
        cases hpending
  | @landSweep index transfer call amount gas hcall hpending hfunds =>
      have hmodest := hreserved.modest call (List.mem_of_getElem? hcall)
      exact hreserved.settle hcall ⟨hmodest.amounts, hmodest.checking,
        hmodest.checked, hmodest.fresh, hmodest.attempts⟩ rfl le_rfl And.intro
  | @dropSweep index transfer call amount hcall hpending =>
      have hmodest := hreserved.modest call (List.mem_of_getElem? hcall)
      exact hreserved.settle hcall ⟨hmodest.amounts, hmodest.checking,
        hmodest.checked, hmodest.fresh, hmodest.attempts⟩ rfl le_rfl And.intro
  | arrive address hopr xdai =>
      exact ⟨hreserved.floor, hreserved.unsent, hreserved.modest⟩
  | nodeReceives xdai =>
      refine ⟨fun spent hmem => ?_, hreserved.unsent, hreserved.modest⟩
      have hfloor := hreserved.floor spent hmem
      have hbound := state.chain.nodeXdai.bound
      simp only [HoprBalance.add_wei]
      omega
  | nodeSpends hfunds =>
      refine ⟨fun spent hmem => ?_, fun hnone => ?_, hreserved.modest⟩
      · obtain ⟨before, hbefore, rfl⟩ := Option.mem_map.mp hmem
        have hfloor := hreserved.floor before hbefore
        simp only [HoprBalance.sub_wei]
        omega
      · exact hreserved.unsent (Option.map_eq_none_iff.mp hnone)

end Reserved

/-- In a run in which at most `width` top-ups are under way at once, the
node's balance is, since a check last passed, below its reserve by at most one
sweep's gas for each of them but one and what the node has spent itself, with
the top-ups under way paid.  Before a check has passed no top-up is sent, and
no call sends its address more than one sweep's gas for each of its
attempts. -/
theorem nodeReserveKept [DecidableEq Address] {cfg : SweepConfig}
    {marker : Payload} {start : XDaiBalance} {width : ℕ}
    {state : PlainSweeps Address Cause}
    (hreach : (sweepSystem cfg marker start :
      TransitionSystem (PlainSweeps Address Cause)
        (SweepAction Address Id Payload Cause)).ReachableWithin
          (AtMost width) state) :
    (∀ spent ∈ state.chain.spent,
      held SweepCall.owed state.calls + cfg.floor ≤ state.chain.nodeXdai.wei +
        (width - 1) * cfg.gasXdaiPerSweep.wei + spent) ∧
      (state.chain.spent = none → ∀ call ∈ state.calls, call.topUps = []) ∧
      ∀ call ∈ state.calls, call.sent ≤
        (cfg.maxSweepRetries + 1) * cfg.gasXdaiPerSweep.wei := by
  have hreserved : Reserved cfg width state := by
    apply hreach.invariant
    · rintro first ⟨hcalls, _, hspent, _⟩
      refine ⟨fun spent hmem => ?_, fun _ call hcall => ?_,
        fun call hcall => ?_⟩
      · rw [hspent] at hmem
        cases hmem
      · rw [hcalls] at hcall
        cases hcall
      · rw [hcalls] at hcall
        cases hcall
    · intro before action after hbefore hwidth hnext
      exact hbefore.next hwidth hnext
  exact ⟨hreserved.floor,
    fun hnone call hcall => (hreserved.unsent hnone call hcall).1,
    fun call hcall => (hreserved.modest call hcall).sent_le⟩

/-- The node has been below its reserve.  Two sweeps find their addresses
without gas. -/
def bothChecking : List SweepAct :=
  [.nodeSpends (.saturating 20), .nodeReceives (.saturating 20),
    .withdrawDeposit 0, .withdrawDeposit 1, .arrive 0 (.saturating 7) .zero,
    .arrive 1 (.saturating 7) .zero] ++ untilCheck 0 ++ untilCheck 1

def bothLand : List SweepAct :=
  [.call 0 (.topUp none), .call 1 (.topUp none), .landTopUp 0 0,
    .landTopUp 1 0, .nodeSpends (.saturating 3)]

/-- A list of actions without a check. -/
theorem atMost_of_unchecked {actions : List SweepAct} {width : ℕ}
    (hunchecked : ∀ index, .call index (.readPayer none) ∉ actions)
    (state : PlainSweeps ℕ Unit) (action : SweepAct)
    (haction : action ∈ actions) : AtMost width state action := by
  unfold AtMost
  split
  · exact absurd haction (hunchecked _)
  · trivial

/-- Both checks see thirty wei.  The two top-ups leave the node ten wei short
of its reserve of twenty, and it spends three more itself. -/
theorem nodeReserveKept_together :
    ∃ state : PlainSweeps ℕ Unit, state.chain.nodeXdai = .saturating 7 ∧
      state.chain.spent = some 3 ∧
      held SweepCall.owed state.calls + oneRetry.floor ≤
        state.chain.nodeXdai.wei +
          (2 - 1) * oneRetry.gasXdaiPerSweep.wei + 3 := by
  have hcheck : ∀ (state : PlainSweeps ℕ Unit) (index : ℕ),
      held SweepCall.underWay state.calls < 2 →
        AtMost 2 state (.call index (.readPayer none) : SweepAct) :=
    fun _ _ h => h
  have hinit : (sweepSystem oneRetry () (.saturating 30) :
      TransitionSystem (PlainSweeps ℕ Unit) SweepAct).ReachableWithin
        (AtMost 2) noDeposits := .init noDeposits_init
  have hchecking := hinit.run bothChecking
    (atMost_of_unchecked (by simp [bothChecking, untilCheck])) rfl
  have hfirst := TransitionSystem.ReachableWithin.step hchecking
    (hcheck _ 0 (by decide)) rfl
  have hsecond := TransitionSystem.ReachableWithin.step hfirst
    (hcheck _ 1 (by decide)) rfl
  have hlanded := hsecond.run bothLand
    (atMost_of_unchecked (by simp [bothLand])) rfl
  exact ⟨_, rfl, rfl, (nodeReserveKept hlanded).1 3 rfl⟩

end HoprStrategy.Plain
