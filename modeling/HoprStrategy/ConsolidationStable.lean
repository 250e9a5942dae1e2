import HoprStrategy.ChannelTick
import HoprStrategy.Library.StableSort

/-!
# Consolidation under its own effect

The closes of `consolidationCloses` return stake to the pool it was sized
with, so the number of channels the pool sustains does not change while they
proceed.  What is left of the list after some of them is what the next
decision returns.
-/

namespace HoprStrategy.ChannelLifecycle

open Library

variable {Id Addr : Type} [DecidableEq Id] [DecidableEq Addr]

def totalStake (channels : List (ChannelEntry Id Addr)) : ℕ :=
  (channels.map (·.balance.wei)).sum

/-- The candidates, the worst-ranked first. -/
def worstFirst (rank : Id → ℚ) (underfunded : List (ChannelEntry Id Addr)) :
    List (ChannelEntry Id Addr) :=
  underfunded.insertionSort fun a b => rank a.id ≤ rank b.id

/-- The candidates which are left when the first `count` closes are done. -/
def leftAfter (rank : Id → ℚ) (underfunded : List (ChannelEntry Id Addr))
    (count : ℕ) : List (ChannelEntry Id Addr) :=
  underfunded.diff ((worstFirst rank underfunded).take count)

/-- `number` of the candidates can be brought to face value with what is free
and what the others hold. -/
def CanComplete (candidates : List (ChannelEntry Id Addr)) (free : ℕ)
    (faceValue : HoprBalance) (number : ℕ) : Prop :=
  ∃ kept closed, (kept ++ closed).Perm candidates ∧ kept.length = number ∧
    (kept.map fun channel => faceValue.wei - channel.balance.wei).sum ≤
      free + totalStake closed

section

variable {channels others : List (ChannelEntry Id Addr)}
  {faceValue : HoprBalance}

omit [DecidableEq Id] [DecidableEq Addr] in
@[simp] theorem totalStake_append (channels others : List (ChannelEntry Id Addr)) :
    totalStake (channels ++ others) =
      totalStake channels + totalStake others := by
  simp [totalStake]

omit [DecidableEq Id] [DecidableEq Addr] in
theorem totalStake_perm (hperm : channels.Perm others) :
    totalStake channels = totalStake others :=
  (hperm.map _).sum_eq

omit [DecidableEq Id] [DecidableEq Addr] in
/-- What under-funded channels lack, and what they hold. -/
theorem topups_add_totalStake
    (hunder : ∀ channel ∈ channels, channel.balance < faceValue) :
    (channels.map fun channel => faceValue.wei - channel.balance.wei).sum +
      totalStake channels = channels.length * faceValue.wei := by
  induction channels with
  | nil => simp [totalStake]
  | cons channel rest ih =>
      have hrest := ih fun other hother =>
        hunder other (List.mem_cons_of_mem _ hother)
      have hchannel : channel.balance.wei < faceValue.wei :=
        hunder channel List.mem_cons_self
      simp only [totalStake, List.map_cons, List.sum_cons, List.length_cons,
        Nat.succ_mul] at hrest ⊢
      omega

omit [DecidableEq Id] [DecidableEq Addr] in
/-- Which channels are kept makes no difference to how many can be. -/
theorem canComplete_iff
    (hunder : ∀ channel ∈ channels, channel.balance < faceValue)
    (free number : ℕ) :
    CanComplete channels free faceValue number ↔
      number ≤ min ((free + totalStake channels) / faceValue.wei)
        channels.length := by
  rw [Nat.le_min]
  constructor
  · rintro ⟨kept, closed, hperm, hlength, hpaid⟩
    have hbound : number ≤ channels.length := by
      rw [← hlength, ← hperm.length_eq, List.length_append]
      exact Nat.le_add_right _ _
    refine ⟨?_, hbound⟩
    cases kept with
    | nil =>
        rw [← hlength]
        exact Nat.zero_le _
    | cons channel rest =>
        have hkept : ∀ other ∈ channel :: rest, other.balance < faceValue :=
          fun other hother =>
            hunder other (hperm.subset (List.mem_append_left _ hother))
        have hface : 0 < faceValue.wei :=
          Nat.zero_lt_of_lt (hkept channel List.mem_cons_self)
        have htotal := topups_add_totalStake hkept
        have hstake := totalStake_perm hperm
        rw [totalStake_append] at hstake
        rw [Nat.le_div_iff_mul_le hface, ← hlength]
        omega
  · rintro ⟨hpool, hbound⟩
    refine ⟨channels.take number, channels.drop number, ?_, ?_, ?_⟩
    · rw [List.take_append_drop]
    · rw [List.length_take]
      exact Nat.min_eq_left hbound
    · have htaken : ∀ channel ∈ channels.take number,
          channel.balance < faceValue := fun channel hchannel =>
        hunder channel (List.mem_of_mem_take hchannel)
      have hkept := topups_add_totalStake htaken
      have hstake : totalStake (channels.take number) +
          totalStake (channels.drop number) = totalStake channels := by
        rw [← totalStake_append, List.take_append_drop]
      have hlength : (channels.take number).length = number := by
        rw [List.length_take]
        exact Nat.min_eq_left hbound
      have hsum : number * faceValue.wei ≤ free + totalStake channels :=
        (Nat.mul_le_mul_right _ hpool).trans (Nat.div_mul_le_self _ _)
      rw [hlength] at hkept
      omega

end

/-! ## What is closed -/

/-- How many of the candidates are closed. -/
def closeCount (candidates achievable : ℕ) : ℕ :=
  if achievable = 0 then 0 else candidates - achievable

variable {underfunded : List (ChannelEntry Id Addr)} {rank : Id → ℚ}
  {safeRemaining reclaiming faceValue : HoprBalance}

omit [DecidableEq Id] [DecidableEq Addr] in
theorem foldlM_checkedAdd {free total : HoprBalance} :
    underfunded.foldlM (fun acc channel => acc.checkedAdd channel.balance)
        free = some total ↔
      free.wei + totalStake underfunded = total.wei := by
  induction underfunded generalizing free with
  | nil =>
      rw [List.foldlM_nil, Option.pure_def, Option.some.injEq,
        HoprBalance.ext_iff]
      rfl
  | cons channel rest ih =>
      have hstake : totalStake (channel :: rest) =
          channel.balance.wei + totalStake rest := by
        simp [totalStake]
      rw [List.foldlM_cons, Option.bind_eq_bind, Option.bind_eq_some_iff,
        hstake]
      constructor
      · rintro ⟨middle, hmiddle, htotal⟩
        rw [HoprBalance.checkedAdd_eq_some] at hmiddle
        rw [ih] at htotal
        omega
      · intro htotal
        have hbound := total.bound
        refine ⟨⟨free.wei + channel.balance.wei, by omega⟩, ?_, ?_⟩
        · exact HoprBalance.checkedAdd_eq_some.mpr rfl
        · rw [ih]
          dsimp only
          omega

omit [DecidableEq Id] [DecidableEq Addr] in
/-- The pool is the exact sum, or the type has no word for it. -/
theorem consolidationPool_eq_some {pool : HoprBalance} :
    consolidationPool underfunded safeRemaining reclaiming = some pool ↔
      safeRemaining.wei + reclaiming.wei + totalStake underfunded =
        pool.wei := by
  unfold consolidationPool
  rw [Option.bind_eq_bind, Option.bind_eq_some_iff]
  constructor
  · rintro ⟨free, hfree, htotal⟩
    rw [HoprBalance.checkedAdd_eq_some] at hfree
    rw [hfree]
    exact foldlM_checkedAdd.mp htotal
  · intro hpool
    have hbound := pool.bound
    refine ⟨⟨safeRemaining.wei + reclaiming.wei, by omega⟩, ?_, ?_⟩
    · exact HoprBalance.checkedAdd_eq_some.mpr rfl
    · exact foldlM_checkedAdd.mpr hpool

omit [DecidableEq Id] [DecidableEq Addr] in
theorem consolidationCloses_eq (rank : Id → ℚ) (faceValue : HoprBalance)
    (hpool : underfunded ≠ [] →
      safeRemaining.wei + reclaiming.wei + totalStake underfunded < 2 ^ 256) :
    consolidationCloses underfunded rank safeRemaining reclaiming faceValue =
      some (((worstFirst rank underfunded).take (closeCount underfunded.length
        ((safeRemaining.wei + reclaiming.wei + totalStake underfunded) /
          faceValue.wei))).map (·.id)) := by
  have hnone : ∀ count, count = 0 →
      ((worstFirst rank underfunded).take count).map (·.id) = [] := by
    intro count hcount
    rw [hcount]
    rfl
  unfold consolidationCloses
  split
  · rename_i hempty
    rw [Bool.or_eq_true] at hempty
    rw [hnone]
    rcases hempty with hzero | hempty
    · have hface : faceValue.wei = 0 := by
        simpa [HoprBalance.isZero] using hzero
      rw [hface, Nat.div_zero]
      rfl
    · rw [List.isEmpty_iff.mp hempty]
      unfold closeCount
      split
      · rfl
      · exact Nat.zero_sub _
  · rename_i hcandidates
    have hunderfunded : underfunded ≠ [] := by
      rintro rfl
      simp at hcandidates
    have hsum : consolidationPool underfunded safeRemaining reclaiming =
        some ⟨_, hpool hunderfunded⟩ := consolidationPool_eq_some.mpr rfl
    rw [hsum, Option.bind_eq_bind, Option.bind_some]
    dsimp only
    split
    · rename_i hfew
      rw [hnone]
      unfold closeCount
      rcases hfew with hzero | hcovered
      · rw [if_pos hzero]
      · split
        · rfl
        · exact Nat.sub_eq_zero_of_le hcovered
    · rename_i hfew
      rw [not_or] at hfew
      unfold closeCount worstFirst
      rw [if_neg hfew.1]

theorem leftAfter_perm (rank : Id → ℚ)
    (underfunded : List (ChannelEntry Id Addr)) (count : ℕ) :
    ((worstFirst rank underfunded).take count ++
      leftAfter rank underfunded count).Perm underfunded :=
  insertionSort_diff_take_perm underfunded count

/-- The channels which are left keep their order, and those closed are gone by
their ids. -/
theorem leftAfter_eq_filter (hdistinct : (underfunded.map (·.id)).Nodup)
    (count : ℕ) :
    leftAfter rank underfunded count = underfunded.filter fun channel =>
      channel.id ∉ ((worstFirst rank underfunded).take count).map (·.id) := by
  have hnodup : underfunded.Nodup := List.Nodup.of_map _ hdistinct
  have hinj : ∀ first ∈ underfunded, ∀ second ∈ underfunded,
      first.id = second.id → first = second :=
    fun first hfirst second hsecond heq =>
      List.inj_on_of_nodup_map hdistinct hfirst hsecond heq
  unfold leftAfter
  rw [hnodup.sdiff_eq_filter]
  apply List.filter_congr
  intro channel hchannel
  congr 1
  apply propext
  rw [not_iff_not]
  constructor
  · exact fun hclosed => List.mem_map_of_mem hclosed
  · intro hclosed
    obtain ⟨other, hother, hid⟩ := List.mem_map.mp hclosed
    have hmem : other ∈ underfunded :=
      (List.mem_insertionSort _).mp (List.mem_of_mem_take hother)
    rw [hinj channel hchannel other hmem hid.symm]
    exact hother

/-! ## Stability -/

/-- A decision after the first `count` closes of an earlier one. -/
structure StableAfter (rank : Id → ℚ)
    (underfunded : List (ChannelEntry Id Addr)) (count : ℕ)
    (free : ℕ) (faceValue : HoprBalance) (closes again : List Id) : Prop where
  suffix : again = closes.drop count
  completable : ∀ number,
    CanComplete (leftAfter rank underfunded count)
      (free + totalStake ((worstFirst rank underfunded).take count)) faceValue
      number ↔
    number ≤ min ((free + totalStake underfunded) / faceValue.wei)
      (leftAfter rank underfunded count).length
  constant : min ((free + totalStake underfunded) / faceValue.wei)
      (leftAfter rank underfunded count).length =
    min ((free + totalStake underfunded) / faceValue.wei) underfunded.length
  worst : closes = ((worstFirst rank underfunded).take closes.length).map (·.id)
  ranked : ∀ closed ∈ (worstFirst rank underfunded).take closes.length,
    ∀ kept ∈ (worstFirst rank underfunded).drop closes.length,
      rank closed.id ≤ rank kept.id
  byId : (underfunded.map (·.id)).Nodup →
    leftAfter rank underfunded count = underfunded.filter fun channel =>
      channel.id ∉ closes.take count

omit [DecidableEq Id] [DecidableEq Addr] in
theorem worstFirst_ranked (rank : Id → ℚ)
    (underfunded : List (ChannelEntry Id Addr)) (count : ℕ) :
    ∀ closed ∈ (worstFirst rank underfunded).take count,
      ∀ kept ∈ (worstFirst rank underfunded).drop count,
        rank closed.id ≤ rank kept.id := by
  have : Std.Total fun a b : ChannelEntry Id Addr => rank a.id ≤ rank b.id :=
    ⟨fun a b => le_total _ _⟩
  have : IsTrans (ChannelEntry Id Addr) fun a b => rank a.id ≤ rank b.id :=
    ⟨fun a b c => le_trans⟩
  have hsorted : (worstFirst rank underfunded).Pairwise
      fun a b => rank a.id ≤ rank b.id :=
    List.pairwise_insertionSort _ underfunded
  rw [← List.take_append_drop count (worstFirst rank underfunded)] at hsorted
  exact (List.pairwise_append.mp hsorted).2.2

/-- While the closes proceed, their stake on its way to the Safe or there, the
decision comes to what is left of it. -/
theorem consolidation_stable
    (hunder : ∀ channel ∈ underfunded, channel.balance < faceValue)
    (hpool : underfunded ≠ [] →
      safeRemaining.wei + reclaiming.wei + totalStake underfunded < 2 ^ 256) :
    ∃ closes,
      consolidationCloses underfunded rank safeRemaining reclaiming faceValue =
        some closes ∧
      ∀ count ≤ closes.length, ∀ safeLater reclaimingLater : HoprBalance,
        safeLater.wei + reclaimingLater.wei =
          safeRemaining.wei + reclaiming.wei +
            totalStake ((worstFirst rank underfunded).take count) →
        ∃ again,
          consolidationCloses (leftAfter rank underfunded count) rank safeLater
            reclaimingLater faceValue = some again ∧
          StableAfter rank underfunded count
            (safeRemaining.wei + reclaiming.wei) faceValue closes again := by
  have : Std.Refl fun a b : ChannelEntry Id Addr => rank a.id ≤ rank b.id :=
    ⟨fun a => le_refl _⟩
  refine ⟨_, consolidationCloses_eq rank faceValue hpool, ?_⟩
  intro count hcount safeLater reclaimingLater hmoved
  have hperm := leftAfter_perm rank underfunded count
  have hstake := totalStake_perm hperm
  rw [totalStake_append] at hstake
  have hsum : safeLater.wei + reclaimingLater.wei +
      totalStake (leftAfter rank underfunded count) =
        safeRemaining.wei + reclaiming.wei + totalStake underfunded := by
    omega
  have hlater : leftAfter rank underfunded count ≠ [] →
      safeLater.wei + reclaimingLater.wei +
        totalStake (leftAfter rank underfunded count) < 2 ^ 256 := by
    intro hleft
    rw [hsum]
    apply hpool
    rintro rfl
    exact hleft (List.nil_diff _)
  refine ⟨_, consolidationCloses_eq rank faceValue hlater, ?_⟩
  have hsorted : worstFirst rank (leftAfter rank underfunded count) =
      (worstFirst rank underfunded).drop count :=
    insertionSort_diff_take underfunded count
  have hlist : (worstFirst rank underfunded).length = underfunded.length :=
    List.length_insertionSort _ _
  rw [List.length_map, List.length_take] at hcount
  have hlength : (leftAfter rank underfunded count).length =
      underfunded.length - count := by
    have hlengths := hperm.length_eq
    rw [List.length_append, List.length_take] at hlengths
    omega
  -- The pool sustains as many channels as before.
  rw [hsum]
  generalize hachieved : (safeRemaining.wei + reclaiming.wei +
    totalStake underfunded) / faceValue.wei = achievable at hcount ⊢
  have hclosed : closeCount (underfunded.length - count) achievable =
      closeCount underfunded.length achievable - count := by
    unfold closeCount
    split
    · exact (Nat.zero_sub _).symm
    · omega
  have hbound : count = 0 ∨ count + achievable ≤ underfunded.length := by
    unfold closeCount at hcount
    split at hcount <;> omega
  have htaken : (((worstFirst rank underfunded).take
      (closeCount underfunded.length achievable)).map (·.id)).length =
        closeCount underfunded.length achievable := by
    rw [List.length_map, List.length_take, hlist]
    apply Nat.min_eq_left
    unfold closeCount
    split <;> omega
  constructor
  · rw [hlength, hclosed, hsorted, ← List.map_drop, List.drop_take]
  · intro number
    have hleft : ∀ channel ∈ leftAfter rank underfunded count,
        channel.balance < faceValue := fun channel hchannel =>
      hunder channel (hperm.subset (List.mem_append_right _ hchannel))
    rw [canComplete_iff hleft]
    have hsame : safeRemaining.wei + reclaiming.wei +
        totalStake ((worstFirst rank underfunded).take count) +
          totalStake (leftAfter rank underfunded count) =
        safeRemaining.wei + reclaiming.wei + totalStake underfunded := by
      omega
    rw [hsame]
  · rw [hachieved, hlength]
    rcases hbound with hzero | hbound
    · rw [hzero, Nat.sub_zero]
    · omega
  · rw [htaken]
  · exact worstFirst_ranked rank underfunded _
  · intro hdistinct
    rw [leftAfter_eq_filter hdistinct, ← List.map_take, List.take_take]
    have hmin : min count (closeCount underfunded.length achievable) =
        count := by
      omega
    rw [hmin]

/-- Seven relays with two thirds of the face value each. -/
def sevenRelays : List (ChannelEntry ℕ ℕ) :=
  (List.range 7).map fun id => ⟨id, id, ⟨10, by decide⟩, .open⟩

/-- Of the three closes one has reached the Safe, and one is on its way. -/
theorem consolidation_stable_sevenRelays :
    StableAfter (fun id : ℕ => (id : ℚ)) sevenRelays 2 0 ⟨15, by decide⟩
      [0, 1, 2] [2] := by
  have hcloses : consolidationCloses sevenRelays (fun id : ℕ => (id : ℚ))
      HoprBalance.zero HoprBalance.zero ⟨15, by decide⟩ = some [0, 1, 2] := by
    decide +kernel
  have hagain : consolidationCloses
      (leftAfter (fun id : ℕ => (id : ℚ)) sevenRelays 2)
      (fun id : ℕ => (id : ℚ)) ⟨10, by decide⟩ ⟨10, by decide⟩
      ⟨15, by decide⟩ = some [2] := by
    decide +kernel
  have hunder : ∀ channel ∈ sevenRelays,
      channel.balance < (⟨15, by decide⟩ : HoprBalance) := by
    decide +kernel
  have hpool : sevenRelays ≠ [] →
      HoprBalance.zero.wei + HoprBalance.zero.wei + totalStake sevenRelays <
        2 ^ 256 := by
    decide +kernel
  have hmoved : (⟨10, by decide⟩ : HoprBalance).wei +
      (⟨10, by decide⟩ : HoprBalance).wei =
      HoprBalance.zero.wei + HoprBalance.zero.wei +
        totalStake ((worstFirst (fun id : ℕ => (id : ℚ)) sevenRelays).take
          2) := by
    decide +kernel
  obtain ⟨closes, hsome, hstable⟩ := @consolidation_stable _ _ _ _ _
    (fun id : ℕ => (id : ℚ)) _ _ _ hunder hpool
  rw [hcloses, Option.some.injEq] at hsome
  subst hsome
  obtain ⟨again, hsome, hstable⟩ := hstable 2 (by decide) _ _ hmoved
  rw [hagain, Option.some.injEq] at hsome
  subst hsome
  exact hstable

/-- With the largest Safe and a candidate which holds anything the sum of the
pool panics. -/
theorem consolidation_overflows :
    ¬ ∀ (underfunded : List (ChannelEntry ℕ ℕ)) (rank : ℕ → ℚ)
        (safeRemaining reclaiming faceValue : HoprBalance),
        (∀ channel ∈ underfunded, channel.balance < faceValue) →
        ∃ closes,
          consolidationCloses underfunded rank safeRemaining reclaiming
            faceValue = some closes ∧
          ∀ count ≤ closes.length, ∀ safeLater reclaimingLater : HoprBalance,
            safeLater.wei + reclaimingLater.wei =
              safeRemaining.wei + reclaiming.wei +
                totalStake ((worstFirst rank underfunded).take count) →
            ∃ again,
              consolidationCloses (leftAfter rank underfunded count) rank
                safeLater reclaimingLater faceValue = some again ∧
              StableAfter rank underfunded count
                (safeRemaining.wei + reclaiming.wei) faceValue closes
                again := by
  intro hclaim
  obtain ⟨closes, hcloses, _⟩ := hclaim [⟨0, 0, ⟨1, by decide⟩, .open⟩]
    (fun _ => 0) (.saturating (2 ^ 256)) HoprBalance.zero ⟨2, by decide⟩
    (by decide)
  have hnone : consolidationCloses [⟨0, 0, ⟨1, by decide⟩, .open⟩]
      (fun _ => 0) (.saturating (2 ^ 256)) HoprBalance.zero ⟨2, by decide⟩ =
        (none : Option (List ℕ)) := by
    decide +kernel
  rw [hnone] at hcloses
  cases hcloses

end HoprStrategy.ChannelLifecycle
