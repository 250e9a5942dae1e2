import HoprStrategy.PlainTracking

/-!
# Trackers find their deposits

Where reads are answered and timers are served in time, a deposit which has
arrived, and stays, is found and reported within two rounds of polling, if the
deadline leaves so much time.  A read which began before the deposit arrived
may still show too little, so one round is not enough.
-/

namespace HoprStrategy.Plain

open Library

variable {Wire Address Id : Type}

/-! ## Time -/

/-- How late a tracker may be served. -/
def TrackerPhase.Serves (lag latency later : ℕ) :
    TrackerPhase Address Id → Prop
  | .reading _ read | .polling _ _ read => later ≤ read.began + latency
  | .jittering timer => later ≤ timer + lag
  | .waiting since timer _ => later ≤ max since timer + lag
  | _ => True

/-- Every read is answered within `latency`, and every timer served within
`lag`. -/
def Prompt (lag latency : ℕ) (state : TrackingState Address Id) :
    TrackingAction Wire Address Id → Prop
  | .pass later =>
      ∀ tracker ∈ state.trackers, tracker.phase.Serves lag latency later
  | _ => True

def Timely (cfg : TrackingConfig) (lag latency : ℕ)
    (state : TrackingState Address Id)
    (action : TrackingAction Wire Address Id) : Prop :=
  Served cfg state action ∧ Prompt lag latency state action

/-- The balance of the address does not fall below the target any more, and
the reads of its tracker succeed. -/
def TrackingAction.Favours (index : ℕ) (dst : Address) (target : HoprBalance) :
    TrackingAction Wire Address Id → Prop
  | .change balances => target ≤ balances dst
  | .track position (.answered none) | .track position .cancel =>
      position ≠ index
  | _ => True

instance decidableServes (lag latency later : ℕ) :
    ∀ phase : TrackerPhase Address Id,
      Decidable (phase.Serves lag latency later)
  | .reading _ read | .polling _ _ read =>
      inferInstanceAs (Decidable (later ≤ read.began + latency))
  | .jittering timer => inferInstanceAs (Decidable (later ≤ timer + lag))
  | .waiting since timer _ =>
      inferInstanceAs (Decidable (later ≤ max since timer + lag))
  | .created | .returned _ | .cancelled => isTrue trivial

instance decidablePrompt (lag latency : ℕ)
    (state : TrackingState Address Id) :
    ∀ action : TrackingAction Wire Address Id,
      Decidable (Prompt lag latency state action)
  | .pass later => inferInstanceAs (Decidable (∀ tracker ∈ state.trackers,
      tracker.phase.Serves lag latency later))
  | .change _ | .received _ | .track _ _ => isTrue trivial

instance decidableTimely (cfg : TrackingConfig) (lag latency : ℕ)
    (state : TrackingState Address Id)
    (action : TrackingAction Wire Address Id) :
    Decidable (Timely cfg lag latency state action) :=
  inferInstanceAs (Decidable (_ ∧ _))

instance decidableFavours (index : ℕ) (dst : Address) (target : HoprBalance) :
    ∀ action : TrackingAction Wire Address Id,
      Decidable (action.Favours index dst target)
  | .change balances => inferInstanceAs (Decidable (target ≤ balances dst))
  | .track position (.answered none) | .track position .cancel =>
      inferInstanceAs (Decidable (position ≠ index))
  | .pass _ | .received _ | .track _ (.answered (some _))
  | .track _ (.begin _) | .track _ .wake | .track _ .tick
  | .track _ .expire => isTrue trivial

/-- One round of polling. -/
def TrackingConfig.round (cfg : TrackingConfig) (lag latency : ℕ) : ℕ :=
  cfg.pollInterval + lag + latency

/-- When a tracker can give up, at the earliest. -/
def TrackerPhase.expiresFrom (cfg : TrackingConfig) (now : ℕ)
    (phase : TrackerPhase Address Id) : ℕ :=
  phase.deadline.getD (now + cfg.maxDepositTrackingTime)

/-- The tracker is live and was polled. -/
def TrackerPhase.started : TrackerPhase Address Id → Bool
  | .created | .returned _ | .cancelled => false
  | _ => true

section

variable {cfg : TrackingConfig} {tryIntoPublic : Wire → Option Address}
  {lag latency now : ℕ} {tracker after : DepositTracker Address Id}

/-- Where the clock may stand in a phase. -/
def TrackerPhase.Timed (cfg : TrackingConfig) (lag latency now : ℕ) :
    TrackerPhase Address Id → Prop
  | .reading jitterMillis read => read.began ≤ now ∧
      now ≤ read.began + latency ∧ jitterMillis * 10 ^ 6 ≤ cfg.pollInterval
  | .jittering timer => timer ≤ now + cfg.pollInterval ∧ now ≤ timer + lag
  | .waiting since timer _ => since ≤ now ∧
      timer ≤ since + cfg.pollInterval ∧ now ≤ max since timer + lag
  | .polling timer _ read => read.began ≤ now ∧
      now ≤ read.began + latency ∧ timer ≤ read.began + cfg.pollInterval
  | _ => True

/-- A live tracker has seen the present balance last. -/
structure DepositTracker.Current (cfg : TrackingConfig) (lag latency now : ℕ)
    (balances : Address → HoprBalance) (tracker : DepositTracker Address Id) :
    Prop where
  timed : tracker.phase.Timed cfg lag latency now
  present : tracker.phase.live = true →
    ∃ earlier, tracker.seen = earlier ++ [balances tracker.dst]

namespace DepositTracker

variable {balances : Address → HoprBalance}

theorem Current.pass {later : ℕ}
    (hcurrent : tracker.Current cfg lag latency now balances)
    (hserves : tracker.phase.Serves lag latency later) (hle : now ≤ later) :
    tracker.Current cfg lag latency later balances := by
  refine ⟨?_, hcurrent.present⟩
  have htimed := hcurrent.timed
  cases hphase : tracker.phase with
  | reading jitterMillis read =>
      rw [hphase] at htimed hserves
      exact ⟨htimed.1.trans hle, hserves, htimed.2.2⟩
  | jittering timer =>
      rw [hphase] at htimed hserves
      exact ⟨htimed.1.trans (Nat.add_le_add_right hle _), hserves⟩
  | waiting since timer deadline =>
      rw [hphase] at htimed hserves
      exact ⟨htimed.1.trans hle, htimed.2.1, hserves⟩
  | polling timer deadline read =>
      rw [hphase] at htimed hserves
      exact ⟨htimed.1.trans hle, hserves, htimed.2.2⟩
  | created | returned _ | cancelled => trivial

theorem Current.observe
    (hcurrent : tracker.Current cfg lag latency now balances)
    (later : Address → HoprBalance) :
    (tracker.observe later).Current cfg lag latency now later := by
  refine ⟨by rw [observe_phase]; exact hcurrent.timed, ?_⟩
  intro hlive
  rw [observe_phase] at hlive
  exact ⟨tracker.seen, by simp [DepositTracker.observe, hlive]⟩

theorem Current.tracks {step : TrackerStep}
    (hcurrent : tracker.Current cfg lag latency now balances)
    (hjitter : ∀ jitterMillis, step = .begin jitterMillis →
      jitterMillis * 10 ^ 6 ≤ cfg.pollInterval)
    (htracks : Tracks cfg now tracker step after) :
    after.Current cfg lag latency now balances := by
  have htimed := hcurrent.timed
  have hpresent := hcurrent.present htracks.live
  cases htracks with
  | begin jitterMillis hphase =>
      refine ⟨⟨le_refl now, Nat.le_add_right now _, ?_⟩, fun _ => hpresent⟩
      exact hjitter jitterMillis rfl
  | found | expire | cancel => exact ⟨trivial, fun _ => hpresent⟩
  | readShort balance jitterMillis read hphase =>
      rw [hphase] at htimed
      refine ⟨⟨?_, ?_⟩, fun _ => hpresent⟩
      · exact Nat.add_le_add_left htimed.2.2 now
      · omega
  | polledShort balance timer deadline read hphase =>
      rw [hphase] at htimed
      refine ⟨⟨le_refl now, ?_, ?_⟩, fun _ => hpresent⟩
      · exact htimed.2.2.trans (Nat.add_le_add_right htimed.1 _)
      · exact (le_max_left now timer).trans (Nat.le_add_right _ _)
  | wake timer hphase hdue =>
      refine ⟨⟨le_refl now, le_refl _, ?_⟩, fun _ => hpresent⟩
      exact (le_max_left now _).trans (Nat.le_add_right _ _)
  | tick since timer deadline hphase hdue =>
      exact ⟨⟨le_refl now, Nat.le_add_right now _, le_refl _⟩,
        fun _ => hpresent⟩

end DepositTracker

theorem current_reachable {state : TrackingState Address Id}
    (hreach : (trackingSystem cfg tryIntoPublic).ReachableWithin
      (Timely cfg lag latency) state) :
    ∀ tracker ∈ state.trackers,
      tracker.Current cfg lag latency state.now state.balances := by
  refine tracker_invariant (DepositTracker.Current cfg lag latency)
    ?_ ?_ ?_ ?_ hreach
  · intro now balances id dst target
    exact ⟨trivial, fun _ => ⟨[], rfl⟩⟩
  · intro state later htimely hle tracker hmem hcurrent
    exact hcurrent.pass (htimely.2 tracker hmem) hle
  · intro now balances later tracker hcurrent
    exact hcurrent.observe later
  · intro state index step htimely tracker after hat htracks hcurrent
    refine hcurrent.tracks ?_ htracks
    rintro jitterMillis rfl
    exact htimely.1

/-! ## One tracker after its deposit has arrived -/

/-- The tracker has found the deposit, or will have by `limit` and before its
deadline.  `base` is the position from which on it has seen enough only, so a
read which began there shows enough. -/
def DepositTracker.Finds (cfg : TrackingConfig)
    (lag latency limit base now : ℕ) (tracker : DepositTracker Address Id) :
    Prop :=
  match tracker.phase with
  | .reading jitterMillis read => now ≤ read.began + latency ∧
      jitterMillis * 10 ^ 6 ≤ cfg.pollInterval ∧
      read.began + 2 * cfg.round lag latency ≤ limit ∧
      limit < now + cfg.maxDepositTrackingTime
  | .jittering timer => now ≤ timer + lag ∧
      timer + lag + cfg.round lag latency ≤ limit ∧
      limit < now + cfg.maxDepositTrackingTime
  | .waiting since timer deadline => now ≤ max since timer + lag ∧
      max since timer + lag + latency ≤ limit ∧ limit < deadline
  | .polling timer deadline read => now ≤ read.began + latency ∧
      limit < deadline ∧
      (base ≤ read.first ∧ read.began + latency ≤ limit ∨
        max (read.began + latency) timer + lag + latency ≤ limit)
  | .returned result => ∃ balance, tracker.target ≤ balance ∧
      result = .ok (tracker.id, tracker.dst, balance)
  | _ => False

/-- The tracker of a deposit on its way to find it. -/
structure DepositTracker.Hunts (cfg : TrackingConfig)
    (lag latency limit base now : ℕ) (tracker first : DepositTracker Address Id)
    : Prop where
  id : tracker.id = first.id
  dst : tracker.dst = first.dst
  target : tracker.target = first.target
  seen : base < tracker.seen.length
  enough : ∀ balance ∈ tracker.seen.drop base, first.target ≤ balance
  finds : tracker.Finds cfg lag latency limit base now

namespace DepositTracker

variable {limit base : ℕ} {first : DepositTracker Address Id}
  {balances : Address → HoprBalance}

/-- A tracker which was polled finds a deposit within two rounds. -/
theorem Current.hunts (hcurrent : tracker.Current cfg lag latency now balances)
    (hstarted : tracker.phase.started = true)
    (hheld : tracker.target ≤ balances tracker.dst)
    (hroom : now + 2 * cfg.round lag latency <
      tracker.phase.expiresFrom cfg now) :
    tracker.Hunts cfg lag latency (now + 2 * cfg.round lag latency)
      (tracker.seen.length - 1) now tracker := by
  have hlive : tracker.phase.live = true := by
    cases hphase : tracker.phase with
    | created | returned _ | cancelled =>
        rw [hphase] at hstarted
        cases hstarted
    | _ => rfl
  obtain ⟨earlier, hseen⟩ := hcurrent.present hlive
  have hlast : tracker.seen.drop (tracker.seen.length - 1) =
      [balances tracker.dst] := by
    rw [hseen]
    simp
  have hlength : tracker.seen.length = earlier.length + 1 := by
    rw [hseen, List.length_append]
    rfl
  refine ⟨rfl, rfl, rfl, by omega, ?_, ?_⟩
  · rw [hlast]
    intro balance hbalance
    rw [List.mem_singleton.mp hbalance]
    exact hheld
  · have htimed := hcurrent.timed
    unfold Finds
    cases hphase : tracker.phase with
    | reading jitterMillis read =>
        rw [hphase] at htimed hroom
        obtain ⟨hbegan, hnow, hjitter⟩ := htimed
        exact ⟨hnow, hjitter, Nat.add_le_add_right hbegan _, hroom⟩
    | jittering timer =>
        rw [hphase] at htimed hroom
        obtain ⟨htimer, hnow⟩ := htimed
        refine ⟨hnow, ?_, hroom⟩
        unfold TrackingConfig.round
        omega
    | waiting since timer deadline =>
        rw [hphase] at htimed hroom
        obtain ⟨hsince, htimer, hnow⟩ := htimed
        refine ⟨hnow, ?_, hroom⟩
        unfold TrackingConfig.round
        omega
    | polling timer deadline read =>
        rw [hphase] at htimed hroom
        obtain ⟨hbegan, hnow, htimer⟩ := htimed
        refine ⟨hnow, hroom, Or.inr ?_⟩
        unfold TrackingConfig.round
        omega
    | created | returned _ | cancelled =>
        rw [hphase] at hstarted
        cases hstarted

theorem Hunts.pass {later : ℕ}
    (hhunts : tracker.Hunts cfg lag latency limit base now first)
    (hserves : tracker.phase.Serves lag latency later) (hle : now ≤ later) :
    tracker.Hunts cfg lag latency limit base later first := by
  refine ⟨hhunts.id, hhunts.dst, hhunts.target, hhunts.seen, hhunts.enough, ?_⟩
  have hfinds := hhunts.finds
  unfold Finds at hfinds ⊢
  cases hphase : tracker.phase with
  | reading jitterMillis read =>
      simp only [hphase] at hfinds hserves ⊢
      obtain ⟨_, hjitter, hlimit, hroom⟩ := hfinds
      exact ⟨hserves, hjitter, hlimit, by omega⟩
  | jittering timer =>
      simp only [hphase] at hfinds hserves ⊢
      obtain ⟨_, hlimit, hroom⟩ := hfinds
      exact ⟨hserves, hlimit, by omega⟩
  | waiting since timer deadline =>
      simp only [hphase] at hfinds hserves ⊢
      exact ⟨hserves, hfinds.2⟩
  | polling timer deadline read =>
      simp only [hphase] at hfinds hserves ⊢
      exact ⟨hserves, hfinds.2⟩
  | returned result =>
      simp only [hphase] at hfinds ⊢
      exact hfinds
  | created | cancelled => simp only [hphase] at hfinds

theorem Hunts.observe
    (hhunts : tracker.Hunts cfg lag latency limit base now first)
    {later : Address → HoprBalance} (hheld : first.target ≤ later first.dst) :
    (tracker.observe later).Hunts cfg lag latency limit base now first := by
  unfold DepositTracker.observe
  split
  · refine ⟨hhunts.id, hhunts.dst, hhunts.target, ?_, ?_, hhunts.finds⟩
    · have hseen := hhunts.seen
      simp only [List.length_append]
      omega
    · intro balance hbalance
      rw [List.drop_append_of_le_length hhunts.seen.le] at hbalance
      rcases List.mem_append.mp hbalance with hold | hlast
      · exact hhunts.enough balance hold
      · rw [List.mem_singleton.mp hlast, hhunts.dst]
        exact hheld
  · exact hhunts

/-- What a read shows which began once the deposit was there. -/
theorem Hunts.enough_since
    (hhunts : tracker.Hunts cfg lag latency limit base now first)
    {read : BalanceRead} {shown : HoprBalance} (hfirst : base ≤ read.first)
    (hshown : shown ∈ tracker.since read) : tracker.target ≤ shown := by
  rw [hhunts.target]
  apply hhunts.enough shown
  have hsplit : read.first = (read.first - base) + base := by omega
  unfold DepositTracker.since at hshown
  rw [hsplit, Nat.add_comm, ← List.drop_drop] at hshown
  exact List.mem_of_mem_drop hshown

theorem Hunts.tracks {step : TrackerStep}
    (hhunts : tracker.Hunts cfg lag latency limit base now first)
    (hserved : ∀ balance read, step = .answered (some balance) →
      tracker.phase.read = some read → balance ∈ tracker.since read)
    (hanswered : step ≠ .answered none) (hkept : step ≠ .cancel)
    (htracks : Tracks cfg now tracker step after) :
    after.Hunts cfg lag latency limit base now first := by
  obtain ⟨hid, hdst, htarget, hseen, henough, hfinds⟩ := hhunts
  have hhunts : tracker.Hunts cfg lag latency limit base now first :=
    ⟨hid, hdst, htarget, hseen, henough, hfinds⟩
  unfold Finds at hfinds
  cases htracks with
  | begin jitterMillis hphase =>
      simp only [hphase] at hfinds
  | found balance read hread hreached =>
      exact ⟨hid, hdst, htarget, hseen, henough, balance, hreached, rfl⟩
  | readShort balance jitterMillis read hphase hshort =>
      simp only [hphase] at hfinds
      obtain ⟨hnow, hjitter, hlimit, hroom⟩ := hfinds
      refine ⟨hid, hdst, htarget, hseen, henough, ?_, ?_, hroom⟩
      · omega
      · unfold TrackingConfig.round at hlimit ⊢
        omega
  | polledShort balance timer deadline read hphase hshort =>
      simp only [hphase] at hfinds
      obtain ⟨hnow, hroom, hfresh | hstale⟩ := hfinds
      · -- a read which began once the deposit was there shows it
        cases balance with
        | none => exact absurd rfl hanswered
        | some shown =>
            have hsince := hserved shown read rfl (by rw [hphase]; rfl)
            exact absurd (hhunts.enough_since hfresh.1 hsince)
              (hshort shown rfl)
      · refine ⟨hid, hdst, htarget, hseen, henough, ?_, ?_, hroom⟩ <;> omega
  | wake timer hphase hdue =>
      simp only [hphase] at hfinds
      obtain ⟨hnow, hlimit, hroom⟩ := hfinds
      refine ⟨hid, hdst, htarget, hseen, henough, ?_, ?_, hroom⟩
      · omega
      · unfold TrackingConfig.round at hlimit
        omega
  | tick since timer deadline hphase hdue =>
      simp only [hphase] at hfinds
      obtain ⟨hnow, hlimit, hroom⟩ := hfinds
      refine ⟨hid, hdst, htarget, hseen, henough, ?_, hroom, Or.inl ⟨?_, ?_⟩⟩
      · exact Nat.le_add_right now latency
      · exact Nat.le_sub_one_of_lt hseen
      · exact (Nat.add_le_add_right hnow latency).trans hlimit
  | expire deadline hphase hover =>
      -- there is time left until the deadline
      exfalso
      rcases hphase with ⟨since, timer, hphase⟩ | ⟨timer, read, hphase⟩
      · simp only [hphase] at hfinds
        omega
      · simp only [hphase] at hfinds
        omega
  | cancel => exact absurd rfl hkept

/-- Whoever still looks has time left. -/
theorem Hunts.reported
    (hhunts : tracker.Hunts cfg lag latency limit base now first)
    (hlate : limit < now) :
    ∃ balance, first.target ≤ balance ∧
      tracker.report = some (first.id, balance) := by
  have hfinds := hhunts.finds
  unfold Finds at hfinds
  cases hphase : tracker.phase with
  | reading jitterMillis read =>
      simp only [hphase] at hfinds
      unfold TrackingConfig.round at hfinds
      omega
  | jittering timer | waiting since timer deadline
  | polling timer deadline read =>
      simp only [hphase] at hfinds
      omega
  | returned result =>
      simp only [hphase] at hfinds
      obtain ⟨balance, henough, rfl⟩ := hfinds
      refine ⟨balance, hhunts.target ▸ henough, ?_⟩
      rw [report, hphase, hhunts.id]
  | created | cancelled => simp only [hphase] at hfinds

end DepositTracker

/-! ## Whole runs -/

theorem hunts_step {limit base index : ℕ}
    {first : DepositTracker Address Id}
    {state next : TrackingState Address Id}
    {action : TrackingAction Wire Address Id}
    (hhunts : ∃ tracker, state.trackers[index]? = some tracker ∧
      tracker.Hunts cfg lag latency limit base state.now first)
    (htimely : Timely cfg lag latency state action)
    (hfavours : action.Favours index first.dst first.target)
    (hnext : state.next cfg tryIntoPublic action = some next) :
    ∃ tracker, next.trackers[index]? = some tracker ∧
      tracker.Hunts cfg lag latency limit base next.now first := by
  obtain ⟨tracker, hat, hhunts⟩ := hhunts
  cases action with
  | pass later =>
      simp only [TrackingState.next] at hnext
      split at hnext
      · case isTrue hle =>
          cases hnext
          have hserves := htimely.2 tracker (List.mem_of_getElem? hat)
          exact ⟨tracker, hat, hhunts.pass hserves hle⟩
      · cases hnext
  | change balances =>
      cases hnext
      refine ⟨tracker.observe balances, ?_, hhunts.observe hfavours⟩
      simp [hat]
  | received event =>
      simp only [TrackingState.next] at hnext
      split at hnext
      · case h_1 tracking hok =>
          cases hnext
          obtain ⟨trackAddr, _, _, rfl⟩ := onDepositAddressReceived_ok hok
          have hlt := (List.getElem?_eq_some_iff.mp hat).1
          exact ⟨tracker, (List.getElem?_append_left hlt).trans hat, hhunts⟩
      · cases hnext
        exact ⟨tracker, hat, hhunts⟩
  | track position step =>
      simp only [TrackingState.next, Option.bind_eq_bind,
        Option.bind_eq_some_iff, Option.some.injEq] at hnext
      obtain ⟨other, hother, after, hadvance, rfl⟩ := hnext
      by_cases heq : position = index
      · subst heq
        obtain rfl : other = tracker :=
          Option.some.inj (hother.symm.trans hat)
        have hlt := (List.getElem?_eq_some_iff.mp hat).1
        refine ⟨after, by simp [TrackingState.replace, hlt], ?_⟩
        refine hhunts.tracks ?_ ?_ ?_
          (DepositTracker.tracks_of_advance hadvance)
        · rintro balance read rfl hread
          exact htimely.1 other hat read hread
        · rintro rfl
          exact hfavours rfl
        · rintro rfl
          exact hfavours rfl
      · refine ⟨tracker, ?_, hhunts⟩
        simp only [TrackingState.replace]
        rw [List.getElem?_set_ne heq]
        exact hat

/-- A deposit which has arrived and stays is found and reported. -/
theorem depositFound {start finish : TrackingState Address Id}
    {actions : List (TrackingAction Wire Address Id)} {index : ℕ}
    (hreach : (trackingSystem cfg tryIntoPublic).ReachableWithin
      (Timely cfg lag latency) start)
    (hat : start.trackers[index]? = some tracker)
    (hstarted : tracker.phase.started = true)
    (hheld : tracker.target ≤ start.balances tracker.dst)
    (hroom : start.now + 2 * cfg.round lag latency <
      tracker.phase.expiresFrom cfg start.now)
    (htimely : (trackingSystem cfg tryIntoPublic).Throughout
      (fun before action _ => Timely cfg lag latency before action ∧
        action.Favours index tracker.dst tracker.target) start actions)
    (hrun : (trackingSystem cfg tryIntoPublic).run start actions =
      some finish)
    (hlate : start.now + 2 * cfg.round lag latency < finish.now) :
    ∃ found balance, finish.trackers[index]? = some found ∧
      found.report = some (tracker.id, balance) ∧
      tracker.target ≤ balance := by
  have hcurrent := current_reachable hreach tracker
    (List.mem_of_getElem? hat)
  have hstep : ∀ before action next,
      (∃ found, before.trackers[index]? = some found ∧
        found.Hunts cfg lag latency (start.now + 2 * cfg.round lag latency)
          (tracker.seen.length - 1) before.now tracker) →
      Timely cfg lag latency before action ∧
        action.Favours index tracker.dst tracker.target →
      (trackingSystem cfg tryIntoPublic).next before action = some next →
      ∃ found, next.trackers[index]? = some found ∧
        found.Hunts cfg lag latency (start.now + 2 * cfg.round lag latency)
          (tracker.seen.length - 1) next.now tracker := by
    intro before action next hhunts hallowed hnext
    exact hunts_step hhunts hallowed.1 hallowed.2 hnext
  obtain ⟨found, hfound, hhunts⟩ := htimely.invariant hstep
    ⟨tracker, hat, hcurrent.hunts hstarted hheld hroom⟩ hrun
  obtain ⟨balance, henough, hreport⟩ := hhunts.reported hlate
  exact ⟨found, balance, hfound, hreport, henough⟩

end

/-! ## A deposit which arrives during a read -/

def hundredSeconds : TrackingConfig := ⟨100 * 10 ^ 9, HoprBalance.saturating 1⟩

def untilFirstPoll : List (TrackingAction Unit Unit ℕ) :=
  [.received ⟨1, 10, ()⟩, .track 0 (.begin 0),
    .track 0 (.answered (some HoprBalance.zero)), .track 0 .wake,
    .pass (10 * 10 ^ 9), .track 0 .tick,
    .change fun _ => HoprBalance.saturating 10]

/-- The poll under way still shows the old balance. -/
def untilReport : List (TrackingAction Unit Unit ℕ) :=
  [.track 0 (.answered (some HoprBalance.zero)), .pass (20 * 10 ^ 9),
    .track 0 .tick, .pass (21 * 10 ^ 9),
    .track 0 (.answered (some (HoprBalance.saturating 10))),
    .pass (40 * 10 ^ 9)]

/-- Polling since ten seconds, when there was nothing. -/
def pollingSinceTen : DepositTracker Unit ℕ where
  id := 1
  dst := ()
  target := HoprBalance.saturating 10
  phase := .polling (20 * 10 ^ 9) (100 * 10 ^ 9) ⟨10 * 10 ^ 9, 0⟩
  called := 0
  seen := [HoprBalance.zero, HoprBalance.saturating 10]
  answers := [some HoprBalance.zero]

def arriving : TrackingState Unit ℕ :=
  ⟨10 * 10 ^ 9, fun _ => HoprBalance.saturating 10, 1, [pollingSinceTen]⟩

theorem arriving_reachable :
    (trackingSystem hundredSeconds
      (some : Unit → Option Unit)).ReachableWithin
        (Timely hundredSeconds (10 ^ 9) (10 ^ 9)) arriving := by
  have htimely : (trackingSystem hundredSeconds some).Throughout
      (fun before action _ =>
        Timely hundredSeconds (10 ^ 9) (10 ^ 9) before action)
      untracked untilFirstPoll := by decide
  have hinit : (trackingSystem hundredSeconds
      (some : Unit → Option Unit)).ReachableWithin
        (Timely hundredSeconds (10 ^ 9) (10 ^ 9)) untracked :=
    .init ⟨rfl, rfl⟩
  exact hinit.throughout htimely rfl

/-- With a second of delay for reads and for timers, two rounds are 24
seconds. -/
theorem depositFound_afterStaleRead :
    ∃ finish, (trackingSystem hundredSeconds some).run arriving untilReport =
        some finish ∧
      ∃ found balance, finish.trackers[0]? = some found ∧
        found.report = some (1, balance) ∧
        HoprBalance.saturating 10 ≤ balance := by
  have hat : arriving.trackers[0]? = some pollingSinceTen := rfl
  have hrun : (trackingSystem hundredSeconds some).run arriving untilReport =
      some _ := rfl
  exact ⟨_, hrun, depositFound arriving_reachable hat rfl (by decide)
    (by decide) (by decide) hrun (by decide)⟩

end HoprStrategy.Plain
