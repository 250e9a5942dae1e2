import HoprStrategy.CurvySdkState
import HoprStrategy.Library.OnceCell
import Mathlib.Tactic

/-!
# The vault token id of a pool

Every note of the pool names its token by the id which the deployment's vault
registered it under.  The id is stated by the operator, or it is looked up the
first time it is needed: the vault's tokens are read newest first until one is
the token which the Safe holds.  The handles of a pool share one lookup, and
"the vault does not have this token" is kept for a minute before the vault is
asked again.

The lookup is the initialiser of a once cell.  What was asked of the vault and
what it answered stands in the log of the world, with the time of each entry.
-/

namespace HoprStrategy.Curvy

open Library

/-- How many of the vault's tokens one lookup reads. -/
def maxScannedTokens : ℕ := 64

/-- How long "the vault does not have the Safe's token" is kept, in
nanoseconds. -/
def unregisteredRecheck : ℕ := 60 * 1000 ^ 3

/-! ## The lookup -/

inductive VaultCall where
  /-- The kept answer, and how long ago it was given. -/
  | unregistered
  | safeToken
  | tokenCount
  | tokenAddress (id : ℕ)
  | keepUnregistered (error : String)
  deriving DecidableEq

abbrev VaultCall.Reply : VaultCall → Type
  | .unregistered => Option (ℕ × String)
  | .safeToken => Except String String
  | .tokenCount => Except String ℕ
  | .tokenAddress _ => Except String String
  | .keepUnregistered _ => Unit

abbrev VaultM : Type → Type := Program VaultCall VaultCall.Reply String

namespace VaultM

def unregistered : VaultM (Option (ℕ × String)) := .call .unregistered .pure

def safeToken : VaultM String := .call .safeToken (.raise id)

def tokenCount : VaultM ℕ := .call .tokenCount (.raise id)

def tokenAddress (id : ℕ) : VaultM String :=
  .call (.tokenAddress id) (.raise fun error => error)

def keepUnregistered (error : String) : VaultM Unit :=
  .call (.keepUnregistered error) .pure

end VaultM

/-- The ids of one lookup, the newest first. -/
def scannedIds (count : ℕ) : List ℕ :=
  let oldestScanned := count - maxScannedTokens + 1
  (List.range' oldestScanned (count + 1 - oldestScanned)).reverse

/-- The first of the ids whose token is the Safe's. -/
def scanTokens (safeToken : String) : List ℕ → VaultM (Option ℕ)
  | [] => return none
  | id :: rest => do
      let address ← VaultM.tokenAddress id
      if eqIgnoreAsciiCase address safeToken then return some id
      else scanTokens safeToken rest

def unregisteredError (safeToken : String) (count : ℕ) : String :=
  if 1 < count - maxScannedTokens + 1 then
    s!"{safeToken}, the token the Safe holds, is not among the " ++
      s!"{maxScannedTokens} most recently registered of the Curvy vault's " ++
      s!"{count} tokens: state its id as `token`"
  else
    s!"none of the Curvy vault's {count} tokens is {safeToken}, the token " ++
      "the Safe holds: this deployment cannot shield it"

/-- The answer which is still taken to be true. -/
def stillUnregistered (kept : Option (ℕ × String)) : Option String :=
  (kept.filter fun known => known.1 < unregisteredRecheck).map Prod.snd

def knownSafeToken : Option String → VaultM String
  | some address => return address
  | none => VaultM.safeToken

/-- Reads the vault's newest tokens, and keeps that none is the Safe's. -/
def searchVault (safeToken : String) : VaultM ℕ := do
  let count ← VaultM.tokenCount
  match ← scanTokens safeToken (scannedIds count) with
  | some id => return id
  | none =>
      VaultM.keepUnregistered (unregisteredError safeToken count)
      .throw (unregisteredError safeToken count)

/-- What `lookup` runs where no id is known yet. -/
def lookupToken (resolvable : Bool) (safeToken : Option String) :
    VaultM ℕ := do
  Program.require (resolvable = true)
    "the Curvy vault token id is neither configured nor resolvable"
  match stillUnregistered (← VaultM.unregistered) with
  | some error => .throw error
  | none => searchVault (← knownSafeToken safeToken)

/-! ## The vault, and what was asked of it -/

structure VaultEntry where
  time : ℕ
  request : VaultCall
  reply : request.Reply

/-- Time, the kept answer, the Safe's token, the vault's tokens in the order
of their registration, and what was asked so far. -/
structure VaultWorld where
  now : ℕ
  unregistered : Option (ℕ × String)
  safe : String
  tokens : List String
  log : List VaultEntry

/-- Nothing was asked yet. -/
def VaultWorld.Fresh (world : VaultWorld) : Prop :=
  world.unregistered = none ∧ world.log = []

def VaultWorld.after (world : VaultWorld) (request : VaultCall)
    (reply : request.Reply) : VaultWorld :=
  { world with
    unregistered := match request with
      | .keepUnregistered error => some (world.now, error)
      | _ => world.unregistered
    log := world.log ++ [⟨world.now, request, reply⟩] }

/-- The kept answer is the one which was kept. -/
def VaultWorld.Recalls (world : VaultWorld) : (request : VaultCall) →
    request.Reply → Prop
  | .unregistered, kept =>
      kept = world.unregistered.map fun known => (world.now - known.1, known.2)
  | _, _ => True

/-- The vault answers as `answers` allows. -/
def vaultEnvironment
    (answers : VaultWorld → (request : VaultCall) → request.Reply → Prop) :
    Environment VaultCall VaultCall.Reply VaultWorld :=
  fun world request reply after =>
    world.Recalls request reply ∧ answers world request reply ∧
      after = world.after request reply

/-- Time passes, and the vault registers tokens. -/
def vaultDrift (world after : VaultWorld) : Prop :=
  ∃ now more, world.now ≤ now ∧
    after = { world with now := now, tokens := world.tokens ++ more }

/-- The vault says what is the case, or fails to answer. -/
def answersTruly (world : VaultWorld) : (request : VaultCall) →
    request.Reply → Prop
  | .safeToken, .ok address => address = world.safe
  | .tokenCount, .ok count => count = world.tokens.length
  | .tokenAddress id, .ok address =>
      id ≠ 0 ∧ world.tokens[id - 1]? = some address
  | _, _ => True

/-- The handles of a pool, which share one resolution. -/
abbrev VaultToken : Type :=
  OnceCell VaultCall VaultCall.Reply String ℕ VaultWorld

namespace VaultToken

def configured (id : ℕ) (world : VaultWorld) : VaultToken :=
  ⟨some id, world, []⟩

def fromTable (world : VaultWorld) : VaultToken := ⟨none, world, []⟩

/-- The id, if it is known without asking. -/
def get (token : VaultToken) : Option ℕ := token.value

end VaultToken

/-- What `resolve` and `resolve_for` run.  Callers which know the Safe's token
give an address which `given` allows. -/
def Lookup (resolvable : Bool) (given : String → Prop)
    (lookup : VaultM ℕ) : Prop :=
  ∃ safeToken, (∀ address, safeToken = some address → given address) ∧
    lookup = lookupToken resolvable safeToken

/-! ## What the log says -/

/-- The ids above `below` were read after the count, without a break, and none
of them is the Safe's token. -/
inductive Scanned (safe : String) (count : ℕ) : ℕ → List VaultEntry → Prop
  | counted {earlier : List VaultEntry} {time : ℕ} :
      Scanned safe count count (earlier ++ [⟨time, .tokenCount, .ok count⟩])
  | passed {log : List VaultEntry} {time below : ℕ} {address : String}
      (hscanned : Scanned safe count (below + 1) log)
      (hother : eqIgnoreAsciiCase address safe = false) :
      Scanned safe count below
        (log ++ [⟨time, .tokenAddress (below + 1), .ok address⟩])

/-- The address is one that callers give, or the one the Safe was said to
hold. -/
def Named (given : String → Prop) (safe : String) (log : List VaultEntry) :
    Prop :=
  given safe ∨ ∃ time, (⟨time, .safeToken, .ok safe⟩ : VaultEntry) ∈ log

/-- The last scan came to `id`, among the most recently registered tokens, and
its token is the Safe's. -/
def Picked (given : String → Prop) (id : ℕ) (log : List VaultEntry) : Prop :=
  ∃ safe count scan time address, Named given safe log ∧
    Scanned safe count id scan ∧
    log = scan ++ [⟨time, .tokenAddress id, .ok address⟩] ∧
    eqIgnoreAsciiCase address safe = true ∧ count - maxScannedTokens < id

def VaultCall.Keeps : VaultCall → Prop
  | .keepUnregistered _ => True
  | _ => False

def VaultCall.Asks : VaultCall → Prop
  | .safeToken | .tokenCount | .tokenAddress _ => True
  | _ => False

/-- A minute passes between a kept answer and the next request. -/
def Spaced (earlier later : VaultEntry) : Prop :=
  earlier.request.Keeps → later.request.Asks →
    earlier.time + unregisteredRecheck ≤ later.time

/-- An answer which was kept comes from a scan that was completed. -/
def Founded (given : String → Prop) (log : List VaultEntry) : Prop :=
  ∀ earlier later time error,
    log = earlier ++ ⟨time, .keepUnregistered error, ()⟩ :: later →
    ∃ safe count, Named given safe earlier ∧
      Scanned safe count (count - maxScannedTokens) earlier ∧
      error = unregisteredError safe count

theorem Scanned.le {safe : String} {count below : ℕ} {log : List VaultEntry}
    (hscanned : Scanned safe count below log) : below ≤ count := by
  induction hscanned with
  | counted => exact le_rfl
  | passed _ _ ih => exact Nat.le_of_succ_le ih

theorem Named.append {given : String → Prop} {safe : String}
    {log : List VaultEntry} (hnamed : Named given safe log)
    (more : List VaultEntry) : Named given safe (log ++ more) := by
  rcases hnamed with hgiven | ⟨time, hmem⟩
  · exact Or.inl hgiven
  · exact Or.inr ⟨time, List.mem_append_left more hmem⟩

/-- What is said of the log of a world, whoever runs. -/
structure VaultHistory (given : String → Prop) (world : VaultWorld) :
    Prop where
  past : ∀ entry ∈ world.log, entry.time ≤ world.now
  recalled : ∀ entry ∈ world.log, entry.request.Keeps →
    ∃ kept, world.unregistered = some kept ∧ entry.time ≤ kept.1
  spaced : world.log.Pairwise Spaced
  founded : Founded given world.log

/-- No answer is still taken to be true. -/
def Expired (world : VaultWorld) : Prop :=
  ∀ kept, world.unregistered = some kept →
    kept.1 + unregisteredRecheck ≤ world.now

theorem VaultHistory.fresh {given : String → Prop} {world : VaultWorld}
    (hfresh : world.Fresh) : VaultHistory given world := by
  obtain ⟨_, hlog⟩ := hfresh
  constructor
  case past => simp [hlog]
  case recalled => simp [hlog]
  case spaced => simp [hlog]
  case founded =>
    intro earlier later time error heq
    simp [hlog] at heq

theorem Founded.append {given : String → Prop} {log : List VaultEntry}
    {entry : VaultEntry} (hfounded : Founded given log)
    (hentry : ∀ time error, entry = ⟨time, .keepUnregistered error, ()⟩ →
      ∃ safe count, Named given safe log ∧
        Scanned safe count (count - maxScannedTokens) log ∧
        error = unregisteredError safe count) :
    Founded given (log ++ [entry]) := by
  intro earlier later time error heq
  rcases List.eq_nil_or_concat later with rfl | ⟨rest, last, rfl⟩
  · obtain ⟨rfl, hlast⟩ := List.append_inj' heq rfl
    exact hentry time error (List.singleton_injective hlast)
  · rw [List.concat_eq_append, ← List.cons_append,
      ← List.append_assoc] at heq
    obtain ⟨hlog, _⟩ := List.append_inj' heq rfl
    exact hfounded earlier rest time error hlog

/-- A world after one more entry. -/
theorem VaultHistory.after {given : String → Prop} {world : VaultWorld}
    (hhistory : VaultHistory given world) {request : VaultCall}
    {reply : request.Reply} (hasks : request.Asks → Expired world)
    (hkeeps : ∀ error, request = .keepUnregistered error →
      ∃ safe count, Named given safe world.log ∧
        Scanned safe count (count - maxScannedTokens) world.log ∧
        error = unregisteredError safe count) :
    VaultHistory given (world.after request reply) := by
  constructor
  case past =>
    intro entry hentry
    rcases List.mem_append.mp hentry with hentry | hentry
    · exact hhistory.past entry hentry
    · rw [List.mem_singleton.mp hentry]
      exact le_rfl
  case recalled =>
    intro entry hentry hkept
    by_cases hrequest : request.Keeps
    · have hnew : (world.after request reply).unregistered.map Prod.fst =
          some world.now := by
        cases request <;> simp_all [VaultCall.Keeps, VaultWorld.after]
      obtain ⟨kept, hkept, htime⟩ := Option.map_eq_some_iff.mp hnew
      refine ⟨kept, hkept, ?_⟩
      rw [htime]
      rcases List.mem_append.mp hentry with hentry | hentry
      · exact hhistory.past entry hentry
      · rw [List.mem_singleton.mp hentry]
    · have hold : (world.after request reply).unregistered =
          world.unregistered := by
        cases request <;> simp_all [VaultCall.Keeps, VaultWorld.after]
      rw [hold]
      rcases List.mem_append.mp hentry with hentry | hentry
      · exact hhistory.recalled entry hentry hkept
      · rw [List.mem_singleton.mp hentry] at hkept
        exact absurd hkept hrequest
  case spaced =>
    refine List.pairwise_append.mpr ⟨hhistory.spaced,
      List.pairwise_singleton _ _, ?_⟩
    intro earlier hearlier later hlater hkept hasked
    rw [List.mem_singleton.mp hlater] at hasked ⊢
    obtain ⟨kept, hworld, htime⟩ := hhistory.recalled earlier hearlier hkept
    have hexpired := hasks hasked kept hworld
    exact (Nat.add_le_add_right htime _).trans hexpired
  case founded =>
    apply hhistory.founded.append
    intro time error heq
    cases heq
    exact hkeeps error rfl

theorem VaultHistory.drift {given : String → Prop} {world after : VaultWorld}
    (hhistory : VaultHistory given world) (hdrift : vaultDrift world after) :
    VaultHistory given after := by
  obtain ⟨now, more, hnow, rfl⟩ := hdrift
  exact ⟨fun entry hentry => (hhistory.past entry hentry).trans hnow,
    hhistory.recalled, hhistory.spaced, hhistory.founded⟩

/-! ## The stages of a lookup -/

inductive LookupStage where
  | idle
  | entered (given : Option String)
  | searching (given : Option String)
  | scanning (safe : String) (count below : ℕ)
  | found (id : ℕ)

def LookupStage.Allows : LookupStage → VaultCall → Prop
  | .entered _, .unregistered => True
  | .searching none, .safeToken => True
  | .searching (some _), .tokenCount => True
  | .scanning _ count below, .tokenAddress id =>
      id = below ∧ count - maxScannedTokens < below
  | .scanning safe count below, .keepUnregistered error =>
      below = count - maxScannedTokens ∧ error = unregisteredError safe count
  | _, _ => False

def LookupStage.next : LookupStage → (request : VaultCall) →
    request.Reply → LookupStage
  | .entered given, .unregistered, kept =>
      if (stillUnregistered kept).isSome then .idle else .searching given
  | .searching none, .safeToken, .ok address => .searching (some address)
  | .searching (some address), .tokenCount, .ok count =>
      .scanning address count count
  | .scanning safe count below, .tokenAddress _, .ok address =>
      if eqIgnoreAsciiCase address safe then .found below
      else .scanning safe count (below - 1)
  | _, _, _ => .idle

def lookupMonitor : Monitor VaultCall VaultCall.Reply LookupStage where
  allows := LookupStage.Allows
  expects := fun _ _ _ => True
  next := LookupStage.next

/-- What the log says of a stage. -/
def LookupStage.Shown (given : String → Prop) (world : VaultWorld) :
    LookupStage → Prop
  | .idle => True
  | .entered address => ∀ safe, address = some safe → given safe
  | .searching address =>
      Expired world ∧ ∀ safe, address = some safe →
        Named given safe world.log
  | .scanning safe count below =>
      Expired world ∧ Named given safe world.log ∧
        Scanned safe count below world.log
  | .found id => Picked given id world.log

def ShowsLookup (given : String → Prop) (world : VaultWorld)
    (stage : LookupStage) : Prop :=
  VaultHistory given world ∧ stage.Shown given world

section

variable {given : String → Prop} {world after : VaultWorld}
  {answers : VaultWorld → (request : VaultCall) → request.Reply → Prop}

theorem expired_of_stillUnregistered
    (hnone : stillUnregistered (world.unregistered.map fun known =>
      (world.now - known.1, known.2)) = none) : Expired world := by
  intro kept hkept
  simp only [stillUnregistered, hkept, Option.map_some, Option.map_eq_none_iff,
    Option.filter_eq_none_iff, Option.some.injEq, decide_eq_true_eq,
    forall_eq', not_lt] at hnone
  have hpositive : 0 < unregisteredRecheck := by decide
  omega

theorem scanned_after {safe : String} {count : ℕ} {address : String}
    {below : ℕ} (hscanned : Scanned safe count below world.log)
    (hother : eqIgnoreAsciiCase address safe = false) (hpositive : 0 < below) :
    Scanned safe count (below - 1)
      (world.after (.tokenAddress below) (.ok address)).log := by
  obtain ⟨previous, rfl⟩ := Nat.exists_eq_add_one.mpr hpositive
  exact .passed hscanned hother

/-- The log shows the stages of a lookup. -/
theorem lookup_shown :
    Program.Shown (vaultEnvironment answers) lookupMonitor
      (ShowsLookup given) := by
  rintro world stage request reply _ ⟨hhistory, hstage⟩ hallows
    ⟨hrecalls, _, rfl⟩
  refine ⟨trivial, ?_⟩
  cases stage with
  | entered address =>
      cases request with
      | unregistered =>
          refine ⟨hhistory.after (fun h => h.elim) (fun _ h => by cases h), ?_⟩
          change (LookupStage.next (.entered address) .unregistered
            reply).Shown given _
          rw [LookupStage.next, show reply = _ from hrecalls]
          split
          · trivial
          · rename_i hnone
            rw [Bool.not_eq_true, Option.isSome_eq_false_iff,
              Option.isNone_iff_eq_none] at hnone
            exact ⟨expired_of_stillUnregistered hnone,
              fun safe hsafe => Or.inl (hstage safe hsafe)⟩
      | _ => exact hallows.elim
  | searching address =>
      obtain ⟨hexpired, hnamed⟩ := hstage
      cases address with
      | none =>
          cases request with
          | safeToken =>
              refine ⟨hhistory.after (fun _ => hexpired)
                (fun _ h => by cases h), ?_⟩
              cases reply with
              | error text => trivial
              | ok address =>
                  refine ⟨hexpired, ?_⟩
                  rintro safe ⟨_⟩
                  exact Or.inr ⟨world.now,
                    List.mem_append_right _ List.mem_cons_self⟩
          | _ => exact hallows.elim
      | some safe =>
          cases request with
          | tokenCount =>
              refine ⟨hhistory.after (fun _ => hexpired)
                (fun _ h => by cases h), ?_⟩
              cases reply with
              | error text => trivial
              | ok count =>
                  exact ⟨hexpired, (hnamed safe rfl).append _, .counted⟩
          | _ => exact hallows.elim
  | scanning safe count below =>
      obtain ⟨hexpired, hnamed, hscanned⟩ := hstage
      cases request with
      | tokenAddress id =>
          obtain ⟨rfl, hbound⟩ := hallows
          refine ⟨hhistory.after (fun _ => hexpired)
            (fun _ h => by cases h), ?_⟩
          cases reply with
          | error text => trivial
          | ok address =>
              change (LookupStage.next (.scanning safe count id)
                (.tokenAddress id) (.ok address)).Shown given _
              rw [LookupStage.next]
              split
              · exact ⟨safe, count, world.log, world.now, address,
                  hnamed.append _, hscanned, rfl, ‹_›, hbound⟩
              · rename_i hother
                rw [Bool.not_eq_true] at hother
                exact ⟨hexpired, hnamed.append _, scanned_after hscanned
                  hother (Nat.zero_lt_of_lt hbound)⟩
      | keepUnregistered error =>
          obtain ⟨rfl, rfl⟩ := hallows
          refine ⟨hhistory.after (fun h => h.elim) ?_, trivial⟩
          rintro error ⟨_⟩
          exact ⟨safe, count, hnamed, hscanned, rfl⟩
      | _ => exact hallows.elim
  | _ => cases request <;> exact hallows.elim

theorem ShowsLookup.drift {stage : LookupStage}
    (hshows : ShowsLookup given world stage)
    (hdrift : vaultDrift world after) : ShowsLookup given after stage := by
  refine ⟨hshows.1.drift hdrift, ?_⟩
  obtain ⟨now, more, hnow, rfl⟩ := hdrift
  have hexpired : Expired world → Expired { world with
      now := now, tokens := world.tokens ++ more } :=
    fun h kept hkept => (h kept hkept).trans hnow
  obtain ⟨_, hstage⟩ := hshows
  cases stage with
  | searching address => exact ⟨hexpired hstage.1, hstage.2⟩
  | scanning safe count below => exact ⟨hexpired hstage.1, hstage.2⟩
  | _ => exact hstage

end

/-! ## The lookup keeps to its stages -/

theorem scannedIds_eq {count : ℕ} (room : ℕ)
    (hroom : count = count - maxScannedTokens + room) :
    scannedIds count = (List.range' (count - maxScannedTokens + 1)
      room).reverse := by
  rw [scannedIds]
  congr 2
  omega

/-- Where a scan ends. -/
def LookupStage.scanned (safe : String) (count : ℕ) :
    Option ℕ → LookupStage
  | some id => .found id
  | none => .scanning safe count (count - maxScannedTokens)

theorem scanTokens_meets (safe : String) (count room : ℕ) :
    (scanTokens safe (List.range' (count - maxScannedTokens + 1)
      room).reverse).Meets lookupMonitor
      (fun found stage => stage = .scanned safe count found)
      (fun _ _ => True)
      (.scanning safe count (count - maxScannedTokens + room)) := by
  induction room with
  | zero => exact rfl
  | succ room ih =>
      rw [List.range'_1_concat, List.reverse_concat, scanTokens]
      apply Program.Meets.bind
      refine Program.meets_call ⟨by omega, by omega⟩ fun reply _ => ?_
      cases reply with
      | error text => trivial
      | ok address =>
          change Program.Meets lookupMonitor _ _ (if _ then _ else _)
            (if _ then _ else _)
          split
          · change LookupStage.found _ = LookupStage.found _
            congr 1
            omega
          · exact ih

theorem searchVault_meets (safe : String) :
    (searchVault safe).Meets lookupMonitor (fun id stage => stage = .found id)
      (fun _ _ => True) (.searching (some safe)) := by
  apply Program.Meets.bind
  refine Program.meets_call trivial fun reply _ => ?_
  cases reply with
  | error text => trivial
  | ok count =>
      obtain ⟨room, hroom⟩ := Nat.exists_eq_add_of_le
        (Nat.sub_le count maxScannedTokens)
      have hmeets := scanTokens_meets safe count room
      rw [← hroom, ← scannedIds_eq room hroom] at hmeets
      apply Program.Meets.bind
      apply hmeets.mono ?_ fun _ _ h => h
      rintro found _ rfl
      cases found with
      | some id => exact rfl
      | none => exact ⟨⟨rfl, rfl⟩, fun _ _ => trivial⟩

theorem knownSafeToken_meets (safeToken : Option String) :
    (knownSafeToken safeToken).Meets lookupMonitor
      (fun safe stage => stage = .searching (some safe)) (fun _ _ => True)
      (.searching safeToken) := by
  cases safeToken with
  | some address => exact rfl
  | none =>
      refine Program.meets_call trivial fun reply _ => ?_
      cases reply with
      | error text => trivial
      | ok address => exact rfl

theorem lookupToken_meets (safeToken : Option String) (resolvable : Bool) :
    (lookupToken resolvable safeToken).Meets lookupMonitor
      (fun id stage => stage = .found id) (fun _ _ => True)
      (.entered safeToken) := by
  apply Program.Meets.bind
  apply Program.meets_require (fun _ => ?_) fun _ => trivial
  apply Program.Meets.bind
  refine Program.meets_call trivial fun kept _ => ?_
  have hstage : lookupMonitor.next (.entered safeToken) .unregistered kept =
      if (stillUnregistered kept).isSome then .idle
      else .searching safeToken := rfl
  rw [Program.Meets, hstage]
  cases stillUnregistered kept with
  | some error => trivial
  | none =>
      apply Program.Meets.bind
      apply (knownSafeToken_meets safeToken).mono ?_ fun _ _ h => h
      rintro safe _ rfl
      exact searchVault_meets safe

/-! ## The rule of the lookups -/

/-- The lookups keep to their stages, and to whatever every answer keeps. -/
theorem lookupRule {given : String → Prop}
    {answers : VaultWorld → (request : VaultCall) → request.Reply → Prop}
    (resolvable : Bool) {Inv : VaultWorld → Prop}
    (hanswer : ∀ world request reply, Inv world →
      answers world request reply → Inv (world.after request reply))
    (hdrift : ∀ world after, Inv world → vaultDrift world after →
      Inv after) :
    OnceCell.CellRule (vaultEnvironment answers) vaultDrift
      (Lookup resolvable given) lookupMonitor
      (fun world stage => ShowsLookup given world stage ∧ Inv world) .idle
      (fun id stage => stage = .found id) (fun _ _ => True)
      (fun _ _ _ => True) where
  shown := by
    rintro world stage request reply after ⟨hshows, hinv⟩ hallows henv
    obtain ⟨hexpects, hafter⟩ :=
      lookup_shown world stage request reply after hshows hallows henv
    refine ⟨hexpects, hafter, ?_⟩
    obtain ⟨_, hanswers, rfl⟩ := henv
    exact hanswer world request reply hinv hanswers
  enter := by
    rintro _ ⟨safeToken, hgiven, rfl⟩ world ⟨hshows, hinv⟩
    exact ⟨.entered safeToken, ⟨⟨hshows.1, hgiven⟩, hinv⟩,
      lookupToken_meets safeToken resolvable⟩
  restart := fun _ _ hshows => ⟨⟨hshows.1.1, trivial⟩, hshows.2⟩
  stable := fun world after _ hpast hshows =>
    ⟨hshows.1.drift hpast, hdrift world after hshows.2 hpast⟩
  telling := fun _ _ _ _ _ _ => trivial
  toldAfter := fun _ _ _ _ _ _ _ _ => trivial
  toldLater := fun _ _ _ _ _ _ => trivial

/-- What holds of the handles of a pool after any run. -/
abbrev LookupsKept (given : String → Prop) (Inv : VaultWorld → Prop)
    (token : VaultToken) : Prop :=
  token.Kept (Lookup true given) lookupMonitor
    (fun world stage => ShowsLookup given world stage ∧ Inv world) .idle
    (fun id stage => stage = .found id) (fun _ _ => True)
    (fun _ _ _ => True)

theorem lookupsKept {given : String → Prop}
    {answers : VaultWorld → (request : VaultCall) → request.Reply → Prop}
    {Inv : VaultWorld → Prop} {start : VaultWorld} {token : VaultToken}
    (hanswer : ∀ world request reply, Inv world →
      answers world request reply → Inv (world.after request reply))
    (hdrift : ∀ world after, Inv world → vaultDrift world after → Inv after)
    (hfresh : start.Fresh) (hinv : Inv start)
    (hreaches : OnceCell.Reaches (vaultEnvironment answers) vaultDrift
      (Lookup true given) (VaultToken.fromTable start) token) :
    LookupsKept given Inv token := by
  have hstart : LookupsKept given Inv (VaultToken.fromTable start) :=
    .start ⟨⟨.fresh hfresh, trivial⟩, hinv⟩
  exact hstart.reaches (lookupRule true hanswer hdrift) hreaches

theorem log_of_drift {world after : VaultWorld}
    (hdrift : Relation.ReflTransGen vaultDrift world after) :
    after.log = world.log := by
  induction hdrift with
  | refl => rfl
  | tail _ hlast ih =>
      obtain ⟨now, more, _, rfl⟩ := hlast
      exact ih

/-- A stated id is used as given, and nothing is ever asked. -/
theorem configured_reaches {given : String → Prop}
    {answers : VaultWorld → (request : VaultCall) → request.Reply → Prop}
    {id : ℕ} {world : VaultWorld} {token : VaultToken}
    (hreaches : OnceCell.Reaches (vaultEnvironment answers) vaultDrift
      (Lookup false given) (VaultToken.configured id world) token) :
    token.Settled id ∧ token.world.log = world.log := by
  have hstart : (VaultToken.configured id world).Settled id :=
    ⟨rfl, by simp [OnceCell.Quiet, VaultToken.configured],
      by simp [VaultToken.configured]⟩
  obtain ⟨hsettled, hdrift⟩ := hstart.reaches hreaches
  exact ⟨hsettled, log_of_drift hdrift⟩

/-! ## A vault which answers truly -/

/-- What was answered is still the case: tokens are only ever added. -/
def VaultWorld.Confirms (world : VaultWorld) : (request : VaultCall) →
    request.Reply → Prop
  | .safeToken, .ok address => address = world.safe
  | .tokenCount, .ok count => count ≤ world.tokens.length
  | .tokenAddress id, .ok address =>
      id ≠ 0 ∧ world.tokens[id - 1]? = some address
  | _, _ => True

def VaultWorld.Truthful (world : VaultWorld) : Prop :=
  ∀ entry ∈ world.log, world.Confirms entry.request entry.reply

theorem VaultWorld.Confirms.grow {world : VaultWorld} {request : VaultCall}
    {reply : request.Reply} (hconfirms : world.Confirms request reply)
    {after : VaultWorld} {more : List String}
    (hsafe : after.safe = world.safe)
    (htokens : after.tokens = world.tokens ++ more) :
    after.Confirms request reply := by
  cases request with
  | safeToken =>
      cases reply with
      | error text => trivial
      | ok address => exact hconfirms.trans hsafe.symm
  | tokenCount =>
      cases reply with
      | error text => trivial
      | ok count =>
          change count ≤ after.tokens.length
          rw [htokens, List.length_append]
          exact Nat.le_add_right_of_le hconfirms
  | tokenAddress id =>
      cases reply with
      | error text => trivial
      | ok address =>
          obtain ⟨hpositive, haddress⟩ := hconfirms
          refine ⟨hpositive, ?_⟩
          obtain ⟨hlt, _⟩ := List.getElem?_eq_some_iff.mp haddress
          rw [htokens, List.getElem?_append_left hlt]
          exact haddress
  | _ => trivial

theorem VaultWorld.Truthful.drift {world after : VaultWorld}
    (htruthful : world.Truthful) (hdrift : vaultDrift world after) :
    after.Truthful := by
  obtain ⟨now, more, _, rfl⟩ := hdrift
  intro entry hentry
  exact (htruthful entry hentry).grow rfl rfl

theorem VaultWorld.Truthful.after {world : VaultWorld} {request : VaultCall}
    {reply : request.Reply} (htruthful : world.Truthful)
    (hanswers : answersTruly world request reply) :
    (world.after request reply).Truthful := by
  intro entry hentry
  rcases List.mem_append.mp hentry with hentry | hentry
  · exact (htruthful entry hentry).grow rfl (List.append_nil _).symm
  · rw [List.mem_singleton.mp hentry]
    cases request with
    | tokenCount =>
        cases reply with
        | error text => trivial
        | ok count => exact le_of_eq hanswers
    | _ => cases reply <;> trivial

/-- The vault last said that it had `count` tokens. -/
def LastCounted (count : ℕ) (log : List VaultEntry) : Prop :=
  ∃ earlier time later,
    log = earlier ++ ⟨time, .tokenCount, .ok count⟩ :: later ∧
      ∀ entry ∈ later, entry.request ≠ .tokenCount

/-- The vault registered the Safe's token under `id`, and under no newer one of
the tokens which the lookup counted. -/
structure NamesSafeToken (world : VaultWorld) (id : ℕ) : Prop where
  named : ∃ address, world.tokens[id - 1]? = some address ∧
    eqIgnoreAsciiCase address world.safe = true
  newest : ∃ count, LastCounted count world.log ∧ id ≤ count ∧
    count ≤ world.tokens.length ∧ count - maxScannedTokens < id ∧
    ∀ newer address, id < newer → newer ≤ count →
      world.tokens[newer - 1]? = some address →
      eqIgnoreAsciiCase address world.safe = false

theorem LastCounted.mem {count : ℕ} {log : List VaultEntry}
    (hcounted : LastCounted count log) :
    ∃ time, (⟨time, .tokenCount, .ok count⟩ : VaultEntry) ∈ log := by
  obtain ⟨earlier, time, later, rfl, _⟩ := hcounted
  exact ⟨time, List.mem_append_right _ List.mem_cons_self⟩

theorem LastCounted.append {count : ℕ} {log : List VaultEntry}
    {entry : VaultEntry} (hcounted : LastCounted count log)
    (hother : entry.request ≠ .tokenCount) :
    LastCounted count (log ++ [entry]) := by
  obtain ⟨earlier, time, later, rfl, hlater⟩ := hcounted
  refine ⟨earlier, time, later ++ [entry], by simp, ?_⟩
  intro read hmem
  rcases List.mem_append.mp hmem with hread | hlast
  · exact hlater read hread
  · rw [List.mem_singleton.mp hlast]
    exact hother

theorem Scanned.lastCounted {safe : String} {count below : ℕ}
    {log : List VaultEntry} (hscanned : Scanned safe count below log) :
    LastCounted count log := by
  induction hscanned with
  | @counted earlier time => exact ⟨earlier, time, [], rfl, by simp⟩
  | passed _ _ ih => exact ih.append (by simp)

theorem Scanned.read_mem {safe : String} {count below newer : ℕ}
    {log : List VaultEntry} (hscanned : Scanned safe count below log)
    (hbelow : below < newer) (hcount : newer ≤ count) :
    ∃ time address,
      (⟨time, .tokenAddress newer, .ok address⟩ : VaultEntry) ∈ log ∧
        eqIgnoreAsciiCase address safe = false := by
  induction hscanned with
  | counted => exact absurd hcount (not_le.mpr hbelow)
  | @passed log time below address _ hother ih =>
      by_cases heq : newer = below + 1
      · subst heq
        exact ⟨time, address,
          List.mem_append_right _ List.mem_cons_self, hother⟩
      · obtain ⟨earlier, other, hmem, hdiffers⟩ := ih (by omega)
        exact ⟨earlier, other, List.mem_append_left _ hmem, hdiffers⟩

theorem eqIgnoreAsciiCase_congr {address left right : String}
    (halike : eqIgnoreAsciiCase left right = true) :
    eqIgnoreAsciiCase address left = eqIgnoreAsciiCase address right := by
  rw [eqIgnoreAsciiCase_iff] at halike
  simp only [eqIgnoreAsciiCase, halike]

theorem Picked.namesSafeToken {given : String → Prop} {id : ℕ}
    {world : VaultWorld}
    (hpicked : Picked given id world.log) (htruthful : world.Truthful)
    (hgiven : ∀ address, given address →
      eqIgnoreAsciiCase address world.safe = true) :
    NamesSafeToken world id := by
  obtain ⟨safe, count, scan, time, address, hnamed, hscanned, hlog, halike,
    hbound⟩ := hpicked
  have hscan : ∀ entry ∈ scan, world.Confirms entry.request entry.reply :=
    fun entry hentry => htruthful entry
      (hlog ▸ List.mem_append_left _ hentry)
  have hsafe : eqIgnoreAsciiCase safe world.safe = true := by
    rcases hnamed with hcaller | ⟨told, hmem⟩
    · exact hgiven safe hcaller
    · have htold : safe = world.safe := htruthful _ hmem
      rw [htold]
      exact eqIgnoreAsciiCase_refl _
  have hlast : world.Confirms (.tokenAddress id) (.ok address) :=
    htruthful ⟨time, .tokenAddress id, .ok address⟩
      (hlog ▸ List.mem_append_right _ List.mem_cons_self)
  obtain ⟨counting, hcounted⟩ := hscanned.lastCounted.mem
  constructor
  · refine ⟨address, hlast.2, ?_⟩
    rw [← eqIgnoreAsciiCase_congr hsafe]
    exact halike
  · have hlogged : LastCounted count world.log := by
      rw [hlog]
      exact hscanned.lastCounted.append (by simp)
    refine ⟨count, hlogged, hscanned.le, hscan _ hcounted, hbound, ?_⟩
    intro newer other hnewer hcount hother
    obtain ⟨reading, read, hmem, hdiffers⟩ := hscanned.read_mem hnewer hcount
    have hread : world.tokens[newer - 1]? = some read := (hscan _ hmem).2
    rw [hother, Option.some.injEq] at hread
    rw [hread, ← eqIgnoreAsciiCase_congr hsafe]
    exact hdiffers

/-! ## A vault which registers the token a minute late -/

def wxHopr : String := "0xD4fdec44DB9D44B8f2b6d529620f9C0C7066A2c1"

def nativeToken : String := "0xeeeeeeeeeeeeeeeeeeeeeeeeeeeeeeeeeeeeeeee"

def lateVault : VaultWorld :=
  ⟨0, none, wxHopr, [nativeToken], []⟩

/-- The vault's own answers. -/
def tellTruly (world : VaultWorld) (request : VaultCall) :
    request.Reply × VaultWorld :=
  let reply : request.Reply := match request with
    | .unregistered => world.unregistered.map fun known =>
        (world.now - known.1, known.2)
    | .safeToken => .ok world.safe
    | .tokenCount => .ok world.tokens.length
    | .tokenAddress 0 => .error "no such token"
    | .tokenAddress (id + 1) => match world.tokens[id]? with
        | some address => .ok address
        | none => .error "no such token"
    | .keepUnregistered _ => ()
  (reply, world.after request reply)

theorem tellTruly_environment (world : VaultWorld) (request : VaultCall) :
    vaultEnvironment answersTruly world request (tellTruly world request).1
      (tellTruly world request).2 := by
  refine ⟨?_, ?_, rfl⟩
  · cases request <;> trivial
  · cases request with
    | tokenAddress id =>
        cases id with
        | zero => trivial
        | succ id =>
            simp only [tellTruly]
            cases htoken : world.tokens[id]? with
            | none => trivial
            | some address => exact ⟨Nat.succ_ne_zero id, htoken⟩
    | _ => trivial

def VaultToken.come (token : VaultToken) (lookup : VaultM ℕ) : VaultToken :=
  { token with callers := token.callers ++ [.waiting lookup] }

/-- Another caller comes, and nothing disturbs its lookup. -/
def VaultToken.lookup (token : VaultToken) (safeToken : Option String) :
    VaultToken :=
  let played := (lookupToken true safeToken).play tellTruly token.world
  ((token.come (lookupToken true safeToken)).put token.callers.length
    (.running (lookupToken true safeToken))).ended token.callers.length
      played.1 played.2

theorem VaultToken.come_quiet {token : VaultToken} (hquiet : token.Quiet)
    (lookup : VaultM ℕ) : (token.come lookup).Quiet := by
  intro rest hmem
  rcases List.mem_append.mp hmem with hmem | hmem
  · exact hquiet rest hmem
  · simp at hmem

theorem VaultToken.reaches_lookup {given : String → Prop} {token : VaultToken}
    (hvalue : token.value = none) (hquiet : token.Quiet)
    (safeToken : Option String)
    (hgiven : ∀ address, safeToken = some address → given address) :
    OnceCell.Reaches (vaultEnvironment answersTruly) vaultDrift
      (Lookup true given) token (token.lookup safeToken) := by
  have hcome : OnceCell.Step (vaultEnvironment answersTruly) vaultDrift
      (Lookup true given) token (token.come (lookupToken true safeToken)) :=
    .come ⟨safeToken, hgiven, rfl⟩
  refine .head hcome (.head (.enter ?_ hvalue (come_quiet hquiet _))
    (OnceCell.reaches_of_runs ?_
      (Program.play_runs tellTruly tellTruly_environment _ _)))
  · simp [VaultToken.come]
  · simp [VaultToken.come, OnceCell.put]

/-- A first lookup finds nothing. -/
def missedToken : VaultToken := (VaultToken.fromTable lateVault).lookup none

def minuteLater : VaultToken :=
  { missedToken with world := { missedToken.world with
      now := unregisteredRecheck
      tokens := missedToken.world.tokens ++ [wxHopr] } }

/-- A second one, which is told what the Safe holds, finds the token that was
registered meanwhile. -/
def lateToken : VaultToken := VaultToken.lookup minuteLater (some wxHopr)

theorem fromTable_quiet (world : VaultWorld) :
    (VaultToken.fromTable world).Quiet := by
  simp [OnceCell.Quiet, VaultToken.fromTable]

theorem reaches_lateToken :
    OnceCell.Reaches (vaultEnvironment answersTruly) vaultDrift
      (Lookup true (· = wxHopr)) (VaultToken.fromTable lateVault)
      lateToken := by
  have hmissed : OnceCell.Reaches (vaultEnvironment answersTruly) vaultDrift
      (Lookup true (· = wxHopr)) (VaultToken.fromTable lateVault)
      missedToken :=
    VaultToken.reaches_lookup rfl (fromTable_quiet _) none (by simp)
  have hlater : OnceCell.Reaches (vaultEnvironment answersTruly) vaultDrift
      (Lookup true (· = wxHopr)) missedToken minuteLater :=
    .single (.pass ⟨unregisteredRecheck, [wxHopr], Nat.zero_le _, rfl⟩)
  have hquiet : OnceCell.Quiet minuteLater :=
    OnceCell.Quiet.ended (VaultToken.come_quiet (fromTable_quiet _) _) _
  exact (hmissed.trans hlater).trans (VaultToken.reaches_lookup
    rfl hquiet _ (by simp))

/-! ## Every run -/

/-- At most one lookup is under way, a minute passes between an answer which
was kept and the next request, and an answer is kept only of a scan which read
every token it was to read. -/
theorem vaultTokenSpared {given : String → Prop}
    {answers : VaultWorld → (request : VaultCall) → request.Reply → Prop}
    {start : VaultWorld} {token : VaultToken} (hfresh : start.Fresh)
    (hreaches : OnceCell.Reaches (vaultEnvironment answers) vaultDrift
      (Lookup true given) (VaultToken.fromTable start) token) :
    (∀ (first second : ℕ) (rest other : VaultM ℕ),
        token.callers[first]? = some (.running rest) →
        token.callers[second]? = some (.running other) → first = second) ∧
      token.world.log.Pairwise Spaced ∧ Founded given token.world.log := by
  have hkept : LookupsKept given (fun _ => True) token :=
    lookupsKept (fun _ _ _ _ _ => trivial) (fun _ _ _ _ => trivial) hfresh
      trivial hreaches
  exact ⟨hkept.alone, hkept.shows.1.1.spaced, hkept.shows.1.1.founded⟩

theorem vaultTokenSpared_lateToken :
    lateToken.world.log.Pairwise Spaced :=
  (vaultTokenSpared ⟨rfl, rfl⟩ reaches_lateToken).2.1

/-- Whoever gets an id gets the same one, for good.  It names the Safe's token,
it is the newest one which does, and nothing is asked of the vault after it was
found. -/
theorem vaultTokenResolved {given : String → Prop} {start : VaultWorld}
    {token : VaultToken} (hfresh : start.Fresh)
    (hgiven : ∀ address, given address →
      eqIgnoreAsciiCase address start.safe = true)
    (hreaches : OnceCell.Reaches (vaultEnvironment answersTruly) vaultDrift
      (Lookup true given) (VaultToken.fromTable start) token) :
    (token.get = none →
      ∀ answer, Caller.answered (.ok answer) ∉ token.callers) ∧
    ∀ id, token.get = some id → NamesSafeToken token.world id ∧
      ∀ later : VaultToken,
        OnceCell.Reaches (vaultEnvironment answersTruly) vaultDrift
          (Lookup true given) token later →
        later.get = some id ∧ later.world.log = token.world.log ∧
          ∀ answer, Caller.answered (.ok answer) ∈ later.callers →
            answer = id := by
  have hstart : start.Truthful := by
    intro entry hentry
    rw [hfresh.2] at hentry
    cases hentry
  have hkept : LookupsKept given (fun world =>
      world.safe = start.safe ∧ world.Truthful) token := by
    refine lookupsKept ?_ ?_ hfresh ⟨rfl, hstart⟩ hreaches
    · intro world request reply hinv hanswers
      exact ⟨hinv.1, hinv.2.after hanswers⟩
    · intro world after hinv hdrift
      refine ⟨?_, hinv.2.drift hdrift⟩
      obtain ⟨now, more, _, rfl⟩ := hdrift
      exact hinv.1
  refine ⟨hkept.empty, ?_⟩
  intro id hget
  obtain ⟨hsettled, _, ⟨⟨_, hfound⟩, hsafe, htruthful⟩, rfl⟩ :=
    hkept.filled id hget
  refine ⟨Picked.namesSafeToken hfound htruthful (hsafe ▸ hgiven), ?_⟩
  intro later hlater
  obtain ⟨hlast, hdrift⟩ := hsettled.reaches hlater
  exact ⟨hlast.value_eq, log_of_drift hdrift, hlast.agreed⟩

theorem vaultTokenResolved_lateToken : NamesSafeToken lateToken.world 2 := by
  have hgiven : ∀ address, address = wxHopr →
      eqIgnoreAsciiCase address lateVault.safe = true := by
    rintro _ rfl
    exact eqIgnoreAsciiCase_refl _
  exact ((vaultTokenResolved ⟨rfl, rfl⟩ hgiven reaches_lateToken).2 2
    (by decide +kernel)).1

end HoprStrategy.Curvy
