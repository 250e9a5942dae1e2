import HoprStrategy.ActionLeases
import HoprStrategy.Library.TransitionSystem
import Mathlib.Tactic

/-!
# The holders of action leases

The counter of a lease set is a 64-bit word, and every attempt to acquire a
slot takes a number off it, also one which is refused.  The set behaves like one
which counts on for ever and hands out the words of its numbers: up to `2 ^ 64`
attempts the words are as distinct as the numbers, past them a word is handed
out again.
-/

namespace HoprStrategy.ChannelLifecycle

open Library

/-- The slots with their counter as the word which it is. -/
structure LeaseSet (Key : Type) where
  leases : List (Key × Lease)
  nextHolder : UInt64
  deriving DecidableEq

variable {Key : Type} [DecidableEq Key]

namespace LeaseSet

def empty : LeaseSet Key := ⟨[], 0⟩

def isHeld (set : LeaseSet Key) (now : ℕ) (key : Key) : Bool :=
  set.leases.any fun entry => entry.1 = key ∧ now < entry.2.heldUntil

def live (set : LeaseSet Key) (now : ℕ) : List (Key × Lease) :=
  set.leases.filter fun entry => now < entry.2.heldUntil

def heldCount (set : LeaseSet Key) (now : ℕ) : ℕ :=
  set.leases.countP fun entry => now < entry.2.heldUntil

def acquire (set : LeaseSet Key) (now timeout : ℕ) (key : Key) :
    Option UInt64 × LeaseSet Key :=
  if set.isHeld now key then
    (none, { set with nextHolder := set.nextHolder + 1 })
  else
    (some set.nextHolder,
      { leases := (key, ⟨set.nextHolder, now + timeout⟩) ::
          set.leases.filter (·.1 ≠ key)
        nextHolder := set.nextHolder + 1 })

def releaseOwned (set : LeaseSet Key) (key : Key) (holder : UInt64) :
    LeaseSet Key :=
  { set with
    leases := set.leases.filter fun entry =>
      ¬ (entry.1 = key ∧ entry.2.holder = holder) }

def release (set : LeaseSet Key) (key : Key) : LeaseSet Key :=
  { set with leases := set.leases.filter (·.1 ≠ key) }

def sweep (set : LeaseSet Key) (now : ℕ) : LeaseSet Key :=
  { set with
    leases := set.leases.filter fun entry => now < entry.2.heldUntil }

variable {set : LeaseSet Key} {now later timeout : ℕ} {key : Key}
  {holder : UInt64}

/-! ## The slots -/

omit [DecidableEq Key] in
theorem mem_live {entry : Key × Lease} :
    entry ∈ set.live now ↔
      entry ∈ set.leases ∧ now < entry.2.heldUntil := by
  simp [live]

theorem isHeld_iff : set.isHeld now key = true ↔
    ∃ lease, (key, lease) ∈ set.leases ∧ now < lease.heldUntil := by
  unfold isHeld
  rw [List.any_eq_true]
  constructor
  · rintro ⟨⟨found, lease⟩, hmem, hheld⟩
    simp only [decide_eq_true_eq] at hheld
    exact ⟨lease, hheld.1 ▸ hmem, hheld.2⟩
  · rintro ⟨lease, hmem, hlt⟩
    exact ⟨(key, lease), hmem, by simpa using hlt⟩

/-- A sweep drops nothing which reads as held, now or later. -/
theorem isHeld_sweep (hle : now ≤ later) :
    (set.sweep now).isHeld later key = set.isHeld later key := by
  rw [Bool.eq_iff_iff, isHeld_iff, isHeld_iff]
  simp only [sweep, List.mem_filter, decide_eq_true_eq]
  constructor
  · rintro ⟨lease, ⟨hmem, _⟩, hlt⟩
    exact ⟨lease, hmem, hlt⟩
  · rintro ⟨lease, hmem, hlt⟩
    exact ⟨lease, ⟨hmem, hle.trans_lt hlt⟩, hlt⟩

/-- One slot is held for each live entry. -/
theorem exists_heldKeys (hkeys : (set.leases.map Prod.fst).Nodup) :
    ∃ held : Finset Key, (∀ key, key ∈ held ↔ set.isHeld now key = true) ∧
      set.heldCount now = held.card := by
  have hnodup : ((set.live now).map Prod.fst).Nodup :=
    hkeys.sublist (List.filter_sublist.map _)
  refine ⟨((set.live now).map Prod.fst).toFinset, ?_, ?_⟩
  · intro key
    rw [List.mem_toFinset, List.mem_map, isHeld_iff]
    constructor
    · rintro ⟨⟨found, lease⟩, hlive, rfl⟩
      exact ⟨lease, mem_live.mp hlive⟩
    · rintro ⟨lease, hlive⟩
      exact ⟨(key, lease), mem_live.mpr hlive, rfl⟩
  · rw [List.toFinset_card_of_nodup hnodup, List.length_map]
    exact List.countP_eq_length_filter

theorem acquire_of_held (hheld : set.isHeld now key = true) :
    set.acquire now timeout key =
      (none, { set with nextHolder := set.nextHolder + 1 }) :=
  if_pos hheld

theorem acquire_of_free (hfree : set.isHeld now key = false) :
    set.acquire now timeout key =
      (some set.nextHolder,
        { leases := (key, ⟨set.nextHolder, now + timeout⟩) ::
            set.leases.filter (·.1 ≠ key)
          nextHolder := set.nextHolder + 1 }) := by
  unfold acquire
  rw [if_neg (by simp [hfree])]

theorem acquire_eq_some (hgranted : (set.acquire now timeout key).1 =
    some holder) : set.isHeld now key = false := by
  unfold acquire at hgranted
  split at hgranted
  · cases hgranted
  · rename_i hfree
    exact Bool.eq_false_of_not_eq_true hfree

theorem mem_releaseOwned {entry : Key × Lease} :
    entry ∈ (set.releaseOwned key holder).leases ↔
      entry ∈ set.leases ∧ ¬ (entry.1 = key ∧ entry.2.holder = holder) := by
  unfold releaseOwned
  rw [List.mem_filter, decide_eq_true_eq]

theorem nodup_acquire (hkeys : (set.leases.map Prod.fst).Nodup) :
    ((set.acquire now timeout key).2.leases.map Prod.fst).Nodup := by
  unfold acquire
  split
  · exact hkeys
  · refine List.nodup_cons.mpr ⟨?_, hkeys.sublist (List.filter_sublist.map _)⟩
    intro hmem
    obtain ⟨entry, hentry, hkey⟩ := List.mem_map.mp hmem
    exact of_decide_eq_true (List.mem_filter.mp hentry).2 hkey

end LeaseSet

/-! ## Runs of a lease set -/

inductive LeaseAction (Key : Type) where
  | pass (now : ℕ)
  | acquire (key : Key) (timeout : ℕ)
  | releaseOwned (key : Key) (holder : UInt64)
  | release (key : Key)
  | sweep

/-- A lease set with the leases which it has granted, oldest first, and the
number of attempts. -/
structure LeaseRun (Key : Type) where
  now : ℕ
  set : LeaseSet Key
  attempts : ℕ
  granted : List (Key × UInt64)
  deriving DecidableEq

namespace LeaseRun

def next (run : LeaseRun Key) : LeaseAction Key → Option (LeaseRun Key)
  | .pass now =>
      if run.now ≤ now then some { run with now := now } else none
  | .acquire key timeout =>
      let (holder, set) := run.set.acquire run.now timeout key
      some { run with
        set := set
        attempts := run.attempts + 1
        granted := run.granted ++ (holder.map (key, ·)).toList }
  | .releaseOwned key holder =>
      some { run with set := run.set.releaseOwned key holder }
  | .release key => some { run with set := run.set.release key }
  | .sweep => some { run with set := run.set.sweep run.now }

end LeaseRun

def leaseRuns (Key : Type) [DecidableEq Key] :
    TransitionSystem (LeaseRun Key) (LeaseAction Key) where
  init run := run = ⟨0, .empty, 0, []⟩
  next := LeaseRun.next

/-- The holder was granted the key, and so was somebody after it. -/
def Stale {Holder : Type} (granted : List (Key × Holder)) (key : Key)
    (holder : Holder) : Prop :=
  ∃ first rest successor, granted = first ++ (key, holder) :: rest ∧
    (key, successor) ∈ rest

/-! ## The counter which goes on -/

/-- The same run with the numbers of the attempts which were granted. -/
structure CountedRun (Key : Type) where
  now : ℕ
  leases : ActionLeases Key
  granted : List (Key × ℕ)

namespace CountedRun

def next (run : CountedRun Key) : LeaseAction Key → Option (CountedRun Key)
  | .pass now =>
      if run.now ≤ now then some { run with now := now } else none
  | .acquire key timeout =>
      let (holder, leases) := run.leases.acquire run.now timeout key
      some { run with
        leases := leases
        granted := run.granted ++
          (holder.map fun _ => (key, run.leases.nextHolder)).toList }
  | .releaseOwned key holder =>
      some { run with leases := run.leases.releaseOwned key holder }
  | .release key => some { run with leases := run.leases.release key }
  | .sweep => some { run with leases := run.leases.sweep run.now }

/-- Numbers are granted in order, and the lease of a key is held by the word of
the last one which was granted it. -/
structure Issued (run : CountedRun Key) : Prop where
  increasing : run.granted.Pairwise fun earlier later => earlier.2 < later.2
  below : ∀ entry ∈ run.granted, entry.2 < run.leases.nextHolder
  last : ∀ key lease, (key, lease) ∈ run.leases.leases →
    ∃ first number rest, run.granted = first ++ (key, number) :: rest ∧
      lease.holder = .ofNat number ∧ ∀ entry ∈ rest, entry.1 ≠ key

variable {run before after : CountedRun Key} {key : Key} {number : ℕ}

omit [DecidableEq Key] in
/-- Nothing was granted, and every lease was there before. -/
theorem Issued.shrink (hissued : before.Issued)
    (hgranted : after.granted = before.granted)
    (hnext : before.leases.nextHolder ≤ after.leases.nextHolder)
    (hleases : after.leases.leases ⊆ before.leases.leases) :
    after.Issued where
  increasing := hgranted ▸ hissued.increasing
  below entry hmem :=
    (hissued.below entry (hgranted ▸ hmem)).trans_le hnext
  last key lease hmem := hgranted ▸ hissued.last key lease (hleases hmem)

theorem Issued.grant (hissued : run.Issued) (key : Key) (timeout : ℕ) :
    Issued { run with
      leases := (run.leases.acquire run.now timeout key).2
      granted := run.granted ++
        ((run.leases.acquire run.now timeout key).1.map
          fun _ => (key, run.leases.nextHolder)).toList } := by
  cases hheld : run.leases.isHeld run.now key with
  | true =>
      rw [ActionLeases.acquire_of_held hheld]
      exact hissued.shrink (List.append_nil _) (Nat.le_succ _)
        (List.Subset.refl _)
  | false =>
      rw [ActionLeases.acquire_of_free hheld]
      constructor
      · refine List.pairwise_append.mpr
          ⟨hissued.increasing, List.pairwise_singleton _ _, ?_⟩
        intro earlier hmem later hlater
        rw [List.mem_singleton.mp hlater]
        exact hissued.below earlier hmem
      · intro entry hmem
        rcases List.mem_append.mp hmem with hold | hnew
        · exact (hissued.below entry hold).trans (Nat.lt_succ_self _)
        · rw [List.mem_singleton.mp hnew]
          exact Nat.lt_succ_self _
      · intro other lease hmem
        rcases List.mem_cons.mp hmem with hnew | hold
        · cases hnew
          exact ⟨run.granted, _, [], rfl, rfl,
            fun entry hentry => by cases hentry⟩
        · obtain ⟨hlease, hother⟩ := List.mem_filter.mp hold
          obtain ⟨first, number, rest, hgranted, hholder, hlast⟩ :=
            hissued.last other lease hlease
          refine ⟨first, number, rest ++ [(key, run.leases.nextHolder)], ?_,
            hholder, ?_⟩
          · dsimp only
            rw [hgranted, List.append_assoc]
            rfl
          · intro entry hentry
            rcases List.mem_append.mp hentry with hrest | hlatest
            · exact hlast entry hrest
            · rw [List.mem_singleton.mp hlatest]
              exact (of_decide_eq_true hother).symm

theorem next_issued {action : LeaseAction Key} (hissued : before.Issued)
    (hnext : before.next action = some after) : after.Issued := by
  cases action with
  | pass now =>
      simp only [next] at hnext
      split at hnext
      · cases hnext
        exact hissued.shrink rfl le_rfl (List.Subset.refl _)
      · cases hnext
  | acquire key timeout =>
      cases hnext
      exact hissued.grant key timeout
  | releaseOwned key holder =>
      cases hnext
      exact hissued.shrink rfl le_rfl (ActionLeases.releaseOwned_subset _)
  | release key =>
      cases hnext
      exact hissued.shrink rfl le_rfl ActionLeases.release_subset
  | sweep =>
      cases hnext
      exact hissued.shrink rfl le_rfl ActionLeases.sweep_subset

omit [DecidableEq Key] in
/-- As long as the counter has not wrapped, a stale number holds no lease any
more. -/
theorem Issued.holder_ne (hissued : run.Issued)
    (hattempts : run.leases.nextHolder ≤ 2 ^ 64)
    (hstale : Stale run.granted key number) {lease : Lease}
    (hlease : (key, lease) ∈ run.leases.leases) :
    lease.holder ≠ .ofNat number := by
  intro hword
  obtain ⟨first, rest, successor, hgranted, hsuccessor⟩ := hstale
  obtain ⟨first', current, rest', hgranted', hholder, hlast⟩ :=
    hissued.last key lease hlease
  have hbelow : ∀ entry ∈ run.granted, entry.2 < 2 ^ 64 :=
    fun entry hmem => (hissued.below entry hmem).trans_le hattempts
  have hnumber : number < 2 ^ 64 := hbelow (key, number) (by simp [hgranted])
  have hcurrent : current < 2 ^ 64 :=
    hbelow (key, current) (by simp [hgranted'])
  have hsame : current = number := by
    rw [← UInt64.toNat_ofNat_of_lt' hcurrent, ← hholder, hword,
      UInt64.toNat_ofNat_of_lt' hnumber]
  subst hsame
  have hlt : current < successor := by
    have hordered := hissued.increasing
    rw [hgranted] at hordered
    exact (List.pairwise_cons.mp (List.pairwise_append.mp hordered).2.1).1
      _ hsuccessor
  have hmem : (key, successor) ∈ run.granted := by
    rw [hgranted]
    exact List.mem_append_right _ (List.mem_cons_of_mem _ hsuccessor)
  have hordered := hissued.increasing
  rw [hgranted'] at hmem hordered
  rcases List.mem_append.mp hmem with hfirst | hafter
  · have hbefore := (List.pairwise_append.mp hordered).2.2 _ hfirst _
      List.mem_cons_self
    exact absurd hbefore (Nat.lt_asymm hlt)
  · rcases List.mem_cons.mp hafter with heq | hrest
    · cases heq
      exact Nat.lt_irrefl _ hlt
    · exact hlast _ hrest rfl

end CountedRun

/-! ## Up to the wrap -/

/-- The words are those of the numbers. -/
structure Counts (word : LeaseRun Key) (run : CountedRun Key) : Prop where
  now : run.now = word.now
  leases : run.leases.leases = word.set.leases
  next : word.set.nextHolder = UInt64.ofNat run.leases.nextHolder
  attempts : run.leases.nextHolder = word.attempts
  granted : word.granted =
    run.granted.map fun entry => (entry.1, UInt64.ofNat entry.2)

namespace Counts

variable {word after : LeaseRun Key} {run : CountedRun Key} {key : Key}

theorem isHeld (hcounts : Counts word run) :
    run.leases.isHeld run.now key = word.set.isHeld word.now key := by
  unfold ActionLeases.isHeld LeaseSet.isHeld
  rw [hcounts.leases, hcounts.now]

theorem acquire (hcounts : Counts word run) (timeout : ℕ)
    (hnext : word.next (.acquire key timeout) = some after) :
    ∃ counted, run.next (.acquire key timeout) = some counted ∧
      Counts after counted := by
  have hlater : word.set.nextHolder + 1 =
      UInt64.ofNat (run.leases.nextHolder + 1) := by
    rw [hcounts.next, UInt64.ofNat_add]
    rfl
  cases hheld : word.set.isHeld word.now key with
  | true =>
      have hcounted := @ActionLeases.acquire_of_held _ _ run.leases run.now key
        timeout (hcounts.isHeld.trans hheld)
      simp only [LeaseRun.next, LeaseSet.acquire_of_held hheld,
        Option.some.injEq] at hnext
      subst hnext
      simp only [CountedRun.next, hcounted]
      exact ⟨_, rfl, hcounts.now, hcounts.leases, hlater,
        congrArg (· + 1) hcounts.attempts, by simp [hcounts.granted]⟩
  | false =>
      have hcounted := @ActionLeases.acquire_of_free _ _ run.leases run.now key
        timeout (hcounts.isHeld.trans hheld)
      simp only [LeaseRun.next, LeaseSet.acquire_of_free hheld,
        Option.some.injEq] at hnext
      subst hnext
      simp only [CountedRun.next, hcounted]
      refine ⟨_, rfl, hcounts.now, ?_, hlater,
        congrArg (· + 1) hcounts.attempts, ?_⟩
      · dsimp only
        rw [hcounts.leases, hcounts.now, hcounts.next]
      · simp [hcounts.granted, hcounts.next]

theorem next_counts {action : LeaseAction Key} (hcounts : Counts word run)
    (hnext : word.next action = some after) :
    ∃ counted, run.next action = some counted ∧ Counts after counted := by
  have hfilter (keep : Key × Lease → Bool) :=
    congrArg (List.filter keep) hcounts.leases
  cases action with
  | pass now =>
      simp only [LeaseRun.next] at hnext
      split at hnext
      · rename_i hle
        cases hnext
        refine ⟨{ run with now := now }, if_pos (hcounts.now ▸ hle), ?_⟩
        exact ⟨rfl, hcounts.leases, hcounts.next, hcounts.attempts,
          hcounts.granted⟩
      · cases hnext
  | acquire key timeout => exact hcounts.acquire timeout hnext
  | releaseOwned key holder =>
      cases hnext
      exact ⟨_, rfl, hcounts.now, hfilter _, hcounts.next, hcounts.attempts,
        hcounts.granted⟩
  | release key =>
      cases hnext
      exact ⟨_, rfl, hcounts.now, hfilter _, hcounts.next, hcounts.attempts,
        hcounts.granted⟩
  | sweep =>
      cases hnext
      refine ⟨_, rfl, hcounts.now, ?_, hcounts.next, hcounts.attempts,
        hcounts.granted⟩
      exact hcounts.now ▸ hfilter _

omit [DecidableEq Key] in
/-- Of distinct numbers the words are distinct, and a stale word is that of a
stale number. -/
theorem granted_nodup (hcounts : Counts word run) (hissued : run.Issued)
    (hattempts : run.leases.nextHolder ≤ 2 ^ 64) :
    (word.granted.map Prod.snd).Nodup := by
  have hbelow : ∀ entry ∈ run.granted, entry.2 < 2 ^ 64 :=
    fun entry hmem => (hissued.below entry hmem).trans_le hattempts
  rw [hcounts.granted, List.map_map]
  refine List.pairwise_map.mpr (hissued.increasing.imp_of_mem ?_)
  intro earlier later hearlier hlater hlt heq
  have hsame : earlier.2 = later.2 := by
    rw [← UInt64.toNat_ofNat_of_lt' (hbelow earlier hearlier),
      ← UInt64.toNat_ofNat_of_lt' (hbelow later hlater)]
    exact congrArg UInt64.toNat heq
  exact hlt.ne hsame

theorem releaseOwned_stale (hcounts : Counts word run) (hissued : run.Issued)
    (hattempts : run.leases.nextHolder ≤ 2 ^ 64) {holder : UInt64}
    (hstale : Stale word.granted key holder) :
    word.set.releaseOwned key holder = word.set := by
  have hkept : word.set.leases.filter (fun entry =>
      ¬ (entry.1 = key ∧ entry.2.holder = holder)) = word.set.leases := by
    rw [List.filter_eq_self]
    rintro ⟨found, lease⟩ hmem
    rw [decide_eq_true_eq]
    rintro ⟨rfl, rfl⟩
    obtain ⟨first, rest, successor, hgranted, hsuccessor⟩ := hstale
    rw [hcounts.granted, List.map_eq_append_iff] at hgranted
    obtain ⟨first', rest', hsplit, -, hrest⟩ := hgranted
    obtain ⟨⟨key, number⟩, rest'', rfl, heq, rfl⟩ :=
      List.map_eq_cons_iff.mp hrest
    obtain ⟨⟨other, later⟩, hlater, heq'⟩ := List.mem_map.mp hsuccessor
    obtain ⟨hkey, hword⟩ := Prod.mk.inj heq
    dsimp only at hkey hword
    subst hkey
    cases (Prod.mk.inj heq').1
    rw [← hcounts.leases] at hmem
    refine hissued.holder_ne hattempts ?_ hmem hword.symm
    exact ⟨first', rest'', later, hsplit, hlater⟩
  unfold LeaseSet.releaseOwned
  rw [hkept]

end Counts

namespace LeaseRun

variable {run before after : LeaseRun Key}

theorem next_acquire {key : Key} {timeout : ℕ}
    (hfree : run.set.isHeld run.now key = false) :
    run.next (.acquire key timeout) = some
      { run with
        set :=
          { leases := (key, ⟨run.set.nextHolder, run.now + timeout⟩) ::
              run.set.leases.filter (·.1 ≠ key)
            nextHolder := run.set.nextHolder + 1 }
        attempts := run.attempts + 1
        granted := run.granted ++ [(key, run.set.nextHolder)] } := by
  simp only [next, LeaseSet.acquire_of_free hfree]
  rfl

/-- A lease set is one which counts on and hands out words. -/
theorem exists_counts (hreach : (leaseRuns Key).Reachable run) :
    ∃ counted : CountedRun Key, Counts run counted ∧ counted.Issued := by
  apply hreach.invariant
  · rintro start rfl
    refine ⟨⟨0, .empty, []⟩, ⟨rfl, rfl, rfl, rfl, rfl⟩, List.Pairwise.nil,
      ?_, ?_⟩
    · intro entry hmem
      cases hmem
    · intro key lease hmem
      cases hmem
  · rintro before action after ⟨counted, hcounts, hissued⟩ hnext
    obtain ⟨later, hlater, hcounts'⟩ := hcounts.next_counts hnext
    exact ⟨later, hcounts', CountedRun.next_issued hissued hlater⟩

theorem keys_nodup (hreach : (leaseRuns Key).Reachable run) :
    (run.set.leases.map Prod.fst).Nodup := by
  apply hreach.invariant
  · rintro start rfl
    exact List.nodup_nil
  · intro before action after hkeys hnext
    cases action with
    | pass now =>
        simp only [leaseRuns, next] at hnext
        split at hnext
        · cases hnext
          exact hkeys
        · cases hnext
    | acquire key timeout =>
        cases hnext
        exact LeaseSet.nodup_acquire hkeys
    | releaseOwned key holder =>
        cases hnext
        exact hkeys.sublist (List.filter_sublist.map _)
    | release key =>
        cases hnext
        exact hkeys.sublist (List.filter_sublist.map _)
    | sweep =>
        cases hnext
        exact hkeys.sublist (List.filter_sublist.map _)

end LeaseRun

/-- In every run a key has at most one live holder and is granted only while it
is free, a release by its holder removes the lease of that holder alone, the
count is that of the held keys, and a sweep answers for nothing.  Within
`2 ^ 64` attempts no holder is granted twice, so that a stale one releases
nothing. -/
theorem actionLeases_exclusive (run : LeaseRun Key)
    (hreach : (leaseRuns Key).Reachable run) :
    (∀ key first second, (key, first) ∈ run.set.live run.now →
      (key, second) ∈ run.set.live run.now → first = second) ∧
    (∀ key timeout holder,
      (run.set.acquire run.now timeout key).1 = some holder →
      run.set.isHeld run.now key = false) ∧
    (∀ key holder entry, entry ∈ (run.set.releaseOwned key holder).leases ↔
      entry ∈ run.set.leases ∧ ¬ (entry.1 = key ∧ entry.2.holder = holder)) ∧
    (∃ held : Finset Key,
      (∀ key, key ∈ held ↔ run.set.isHeld run.now key = true) ∧
      run.set.heldCount run.now = held.card) ∧
    (∀ later key, run.now ≤ later →
      (run.set.sweep run.now).isHeld later key = run.set.isHeld later key) ∧
    (run.attempts ≤ 2 ^ 64 → (run.granted.map Prod.snd).Nodup ∧
      ∀ key holder, Stale run.granted key holder →
        run.set.releaseOwned key holder = run.set) := by
  have hkeys := LeaseRun.keys_nodup hreach
  refine ⟨?_, ?_, ?_, LeaseSet.exists_heldKeys hkeys, ?_, ?_⟩
  · intro key first second hfirst hsecond
    have heq := List.inj_on_of_nodup_map hkeys (LeaseSet.mem_live.mp hfirst).1
      (LeaseSet.mem_live.mp hsecond).1 rfl
    cases heq
    rfl
  · intro key timeout holder hgranted
    exact LeaseSet.acquire_eq_some hgranted
  · intro key holder entry
    exact LeaseSet.mem_releaseOwned
  · intro later key hle
    exact LeaseSet.isHeld_sweep hle
  · intro hattempts
    obtain ⟨counted, hcounts, hissued⟩ := LeaseRun.exists_counts hreach
    rw [← hcounts.attempts] at hattempts
    refine ⟨hcounts.granted_nodup hissued hattempts, ?_⟩
    intro key holder hstale
    exact hcounts.releaseOwned_stale hissued hattempts hstale

/-- A slot taken for no time is handed over, and its first holder is stale. -/
theorem actionLeases_exclusive_handedOver :
    ∃ run : LeaseRun ℕ, run.set.isHeld run.now 3 = true ∧
      run.set.releaseOwned 3 0 = run.set := by
  have hreach : (leaseRuns ℕ).Reachable
      ⟨0, ⟨[(3, ⟨1, 5⟩)], 2⟩, 2, [(3, 0), (3, 1)]⟩ :=
    TransitionSystem.Reachable.run (.init rfl)
      [.acquire 3 0, .acquire 3 5] (by decide)
  refine ⟨_, ?_, ((actionLeases_exclusive _ hreach).2.2.2.2.2 ?_).2 3 0 ?_⟩
  · decide
  · norm_num
  · exact ⟨[], [(3, 1)], 1, rfl, List.mem_cons_self⟩

/-! ## Past the wrap -/

/-- The slot of a key which is taken again and again, for no time. -/
def takenOver (attempts : ℕ) : LeaseRun ℕ where
  now := 0
  set := ⟨match attempts with
    | 0 => []
    | last + 1 => [(0, ⟨UInt64.ofNat last, 0⟩)], UInt64.ofNat attempts⟩
  attempts := attempts
  granted := (List.range attempts).map fun i => (0, UInt64.ofNat i)

theorem reachable_takenOver (attempts : ℕ) :
    (leaseRuns ℕ).Reachable (takenOver attempts) := by
  induction attempts with
  | zero => exact .init rfl
  | succ attempts ih =>
      suffices hnext : (leaseRuns ℕ).next (takenOver attempts)
          (.acquire 0 0) = some (takenOver (attempts + 1)) from ih.step hnext
      have hfree : (takenOver attempts).set.isHeld 0 0 = false := by
        cases attempts with
        | zero => rfl
        | succ last => rfl
      have hnone : (takenOver attempts).set.leases.filter (·.1 ≠ 0) = [] := by
        cases attempts with
        | zero => rfl
        | succ last => rfl
      have hnext : UInt64.ofNat attempts + 1 = UInt64.ofNat (attempts + 1) :=
        (UInt64.ofNat_add attempts 1).symm
      change (takenOver attempts).next (.acquire 0 0) = _
      rw [LeaseRun.next_acquire hfree, hnone]
      unfold takenOver
      rw [List.range_succ, List.map_append, hnext]
      rfl

/-- After `2 ^ 64` attempts the first holder is granted the slot once more. -/
theorem actionLeases_reuse_holders :
    ¬ ∀ run : LeaseRun ℕ, (leaseRuns ℕ).Reachable run →
      (run.granted.map Prod.snd).Nodup := by
  intro hclaim
  obtain ⟨rounds, hwrap⟩ : ∃ rounds : ℕ, rounds = 2 ^ 64 := ⟨_, rfl⟩
  have hnodup := hclaim _ (reachable_takenOver (rounds + 1))
  have hfirst : UInt64.ofNat rounds = UInt64.ofNat 0 := by
    rw [hwrap]
    rfl
  simp only [takenOver, List.map_map] at hnodup
  have hinjective := List.inj_on_of_nodup_map hnodup
    (List.mem_range.mpr (Nat.lt_succ_self rounds))
    (List.mem_range.mpr (Nat.succ_pos rounds)) hfirst
  rw [hwrap] at hinjective
  norm_num at hinjective

end HoprStrategy.ChannelLifecycle
