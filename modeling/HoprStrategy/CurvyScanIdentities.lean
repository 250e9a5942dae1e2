import HoprStrategy.Library.TaskList
import HoprStrategy.Library.TransitionSystem

/-!
# Scan identities

An Exit asks for the deposit data of its allocations.  Each request is answered
by a task of its own, one allocation after the other: the pool reads the scan
secret of the allocation, or draws and stores one, and only then hands out the
public half.  The same secret is read again when the deposit is tracked.
Nothing is locked between the read and the write, requests run side by side,
and the node may stop at any point.
-/

namespace HoprStrategy.Curvy.ScanIdentity

open Library

section

variable (Id Secret Public : Type)

/-- Where a task stands with the allocation at hand. -/
inductive RequestPhase where
  | idle
  | reconciling (id : Id)
  | reading (id : Id)
  | drawing (id : Id)
  | storing (id : Id) (secret : Secret)
  | sending (id : Id) (scanKey : Public)

/-- A `PixDepositDataRequest`, with what went through its channel. -/
structure DataRequest where
  depositIds : List Id
  phase : RequestPhase Id Secret Public
  created : List (Id × Public)

/-- What has happened to an allocation: a secret was stored for it, its deposit
data reached the Exit, its deposit was tracked, or it was swept and its secret
removed. -/
inductive ScanEvent where
  | wrote (id : Id) (secret : Secret)
  | handed (id : Id) (scanKey : Public)
  | tracked (id : Id) (scanKey : Public)
  | swept (id : Id)
  deriving DecidableEq

/-- The stored scan secrets, the requests under way, and what has happened, the
latest first. -/
structure ScanState where
  secrets : Id → Option Secret
  requests : List (DataRequest Id Secret Public)
  log : List (ScanEvent Id Secret Public)

/-- How a write transaction ends: an error may come after the commit. -/
inductive WriteOutcome where
  | committed
  | failed
  | committedUnreported
  deriving DecidableEq

inductive ScanAction where
  | request (depositIds : List Id)
  | take (index : ℕ)
  | reconciled (index : ℕ) (ok : Bool)
  | read (index : ℕ) (ok : Bool)
  | draw (index : ℕ) (secret : Option Secret)
  | store (index : ℕ) (outcome : WriteOutcome)
  | send (index : ℕ) (received : Bool)
  /-- The deposit of an allocation is to be tracked. -/
  | notify (id : Id) (ok : Bool)
  /-- A swept allocation's secret is removed, if that succeeds. -/
  | sweep (id : Id) (removed : Bool)
  | restart

end

variable {Id Secret Public : Type} [DecidableEq Id]

/-! ## The tasks -/

namespace DataRequest

def moved (request : DataRequest Id Secret Public)
    (phase : RequestPhase Id Secret Public) : DataRequest Id Secret Public :=
  { request with phase := phase }

def delivered (request : DataRequest Id Secret Public) (id : Id)
    (scanKey : Public) : DataRequest Id Secret Public :=
  { request with
    phase := .idle
    created := request.created ++ [(id, scanKey)] }

/-- The Exit has dropped its receiver. -/
def abandoned (request : DataRequest Id Secret Public) :
    DataRequest Id Secret Public :=
  { request with
    depositIds := []
    phase := .idle }

end DataRequest

namespace ScanState

variable (publicOf : Secret → Public)

def setRequest (state : ScanState Id Secret Public) (index : ℕ)
    (request : DataRequest Id Secret Public) : ScanState Id Secret Public :=
  { state with requests := state.requests.set index request }

/-- `store_scan_secret`, as far as it was committed. -/
def storeScanSecret (state : ScanState Id Secret Public) (id : Id)
    (secret : Secret) : ScanState Id Secret Public :=
  { state with
    secrets := Function.update state.secrets id (some secret)
    log := .wrote id secret :: state.log }

/-- `remove_scan_secret`. -/
def removeScanSecret (state : ScanState Id Secret Public) (id : Id) :
    ScanState Id Secret Public :=
  { state with
    secrets := Function.update state.secrets id none
    log := .swept id :: state.log }

/-- The scan secret which is stored, or a new one. -/
def readStep (state : ScanState Id Secret Public) (index : ℕ)
    (request : DataRequest Id Secret Public) (id : Id) (ok : Bool) :
    ScanState Id Secret Public :=
  if ok then
    match state.secrets id with
    | some existing =>
        state.setRequest index
          (request.moved (.sending id (publicOf existing)))
    | none => state.setRequest index (request.moved (.drawing id))
  else state.setRequest index (request.moved .idle)

def storeStep (state : ScanState Id Secret Public) (index : ℕ)
    (request : DataRequest Id Secret Public) (id : Id) (secret : Secret) :
    WriteOutcome → ScanState Id Secret Public
  | .committed =>
      (state.storeScanSecret id secret).setRequest index
        (request.moved (.sending id (publicOf secret)))
  | .failed => state.setRequest index (request.moved .idle)
  | .committedUnreported =>
      (state.storeScanSecret id secret).setRequest index
        (request.moved .idle)

def sendStep (state : ScanState Id Secret Public) (index : ℕ)
    (request : DataRequest Id Secret Public) (id : Id) (scanKey : Public)
    (received : Bool) : ScanState Id Secret Public :=
  if received then
    { state.setRequest index (request.delivered id scanKey) with
      log := .handed id scanKey :: state.log }
  else state.setRequest index request.abandoned

/-- The next step of a request's task. -/
def requestStep (state : ScanState Id Secret Public) (index : ℕ)
    (request : DataRequest Id Secret Public) :
    ScanAction Id Secret → Option (ScanState Id Secret Public)
  | .take _ =>
      match request.phase, request.depositIds with
      | .idle, id :: rest =>
          some (state.setRequest index
            { request with depositIds := rest, phase := .reconciling id })
      | _, _ => none
  | .reconciled _ ok =>
      match request.phase with
      | .reconciling id =>
          some (state.setRequest index
            (request.moved (if ok then .reading id else .idle)))
      | _ => none
  | .read _ ok =>
      match request.phase with
      | .reading id => some (state.readStep publicOf index request id ok)
      | _ => none
  | .draw _ secret =>
      match request.phase with
      | .drawing id =>
          some (state.setRequest index (request.moved
            (secret.elim .idle (.storing id))))
      | _ => none
  | .store _ outcome =>
      match request.phase with
      | .storing id secret =>
          some (state.storeStep publicOf index request id secret outcome)
      | _ => none
  | .send _ received =>
      match request.phase with
      | .sending id scanKey =>
          some (state.sendStep index request id scanKey received)
      | _ => none
  | _ => none

def next (state : ScanState Id Secret Public) :
    ScanAction Id Secret → Option (ScanState Id Secret Public)
  | .request depositIds =>
      some { state with
        requests := state.requests ++ [⟨depositIds, .idle, []⟩] }
  | .notify id ok =>
      if ok then
        match state.secrets id with
        | some secret =>
            some { state with
              log := .tracked id (publicOf secret) :: state.log }
        | none => some state
      else some state
  | .sweep id removed =>
      some (if removed then state.removeScanSecret id else state)
  | .restart => some { state with requests := [] }
  | .take index => step index (.take index)
  | .reconciled index ok => step index (.reconciled index ok)
  | .read index ok => step index (.read index ok)
  | .draw index secret => step index (.draw index secret)
  | .store index outcome => step index (.store index outcome)
  | .send index received => step index (.send index received)
where
  step (index : ℕ) (action : ScanAction Id Secret) :
      Option (ScanState Id Secret Public) :=
    state.requests[index]?.bind fun request =>
      state.requestStep publicOf index request action

end ScanState

def scanIdentities (publicOf : Secret → Public) :
    TransitionSystem (ScanState Id Secret Public) (ScanAction Id Secret) where
  init state := (∀ id, state.secrets id = none) ∧ state.requests = [] ∧
    state.log = []
  next := ScanState.next publicOf

/-! ## One identity an allocation -/

/-- What has happened since the allocation was last swept. -/
def sinceSweep (id : Id) :
    List (ScanEvent Id Secret Public) → List (ScanEvent Id Secret Public)
  | [] => []
  | .swept other :: earlier => if other = id then [] else sinceSweep id earlier
  | event :: earlier => event :: sinceSweep id earlier

/-- The stored secret of the allocation is that of the scan key. -/
def Names (publicOf : Secret → Public) (secrets : Id → Option Secret)
    (id : Id) (scanKey : Public) : Prop :=
  ∃ secret, secrets id = some secret ∧ publicOf secret = scanKey

/-- Whether the task is between finding no secret and having stored one. -/
def RequestPhase.minting (id : Id) : RequestPhase Id Secret Public → ℕ
  | .drawing other => if other = id then 1 else 0
  | .storing other _ => if other = id then 1 else 0
  | _ => 0

/-- The allocation whose secret the task reads next. -/
def RequestPhase.reads : RequestPhase Id Secret Public → Option Id
  | .reading id => some id
  | _ => none

/-- The allocation whose deposit data the task sends next. -/
def RequestPhase.sends : RequestPhase Id Secret Public → Option Id
  | .sending id _ => some id
  | _ => none

def ScanState.minters (state : ScanState Id Secret Public) (id : Id) : ℕ :=
  held (·.phase.minting id) state.requests

/-- The condition on a step: where the secret of an allocation is read, no
other task is about to store one for it, and an allocation is swept when none
of its requests is under way. -/
def Alone (state : ScanState Id Secret Public) :
    ScanAction Id Secret → Prop
  | .read index _ => ∀ request ∈ state.requests[index]?,
      ∀ id ∈ request.phase.reads, state.minters id = 0
  | .sweep id _ => state.minters id = 0 ∧
      ∀ request ∈ state.requests, request.phase.sends ≠ some id
  | _ => True

instance (state : ScanState Id Secret Public) :
    ∀ action, Decidable (Alone state action)
  | .read index _ => inferInstanceAs (Decidable
      (∀ request ∈ state.requests[index]?,
        ∀ id ∈ request.phase.reads, state.minters id = 0))
  | .sweep id _ => inferInstanceAs (Decidable
      (state.minters id = 0 ∧
        ∀ request ∈ state.requests, request.phase.sends ≠ some id))
  | .request _ | .take _ | .reconciled _ _ | .draw _ _ | .store _ _
  | .send _ _ | .notify _ _ | .restart => inferInstanceAs (Decidable True)

/-- What was handed out or tracked since the last sweep, or is on its way, names
the stored secret, and a secret is minted by one task only, where there is
none. -/
structure Stable (publicOf : Secret → Public)
    (state : ScanState Id Secret Public) : Prop where
  once : ∀ id, state.minters id ≤ 1
  absent : ∀ id, 0 < state.minters id → state.secrets id = none
  sends : ∀ request ∈ state.requests, ∀ id scanKey,
    request.phase = .sending id scanKey →
      Names publicOf state.secrets id scanKey
  handed : ∀ id scanKey, .handed id scanKey ∈ sinceSweep id state.log →
    Names publicOf state.secrets id scanKey
  tracked : ∀ id scanKey, .tracked id scanKey ∈ sinceSweep id state.log →
    Names publicOf state.secrets id scanKey

section

variable {publicOf : Secret → Public} {state after : ScanState Id Secret Public}
  {index : ℕ} {request moved : DataRequest Id Secret Public} {id : Id}
  {secret : Secret}

theorem minters_setRequest
    (hrequest : state.requests[index]? = some request)
    (moved : DataRequest Id Secret Public) (id : Id) :
    (state.setRequest index moved).minters id + request.phase.minting id =
      state.minters id + moved.phase.minting id :=
  held_set (·.phase.minting id) moved hrequest

/-- A task goes on without taking up a new allocation to mint for. -/
theorem Stable.setRequest (hstable : Stable publicOf state)
    (hrequest : state.requests[index]? = some request)
    (hmints : ∀ id, moved.phase.minting id ≤ request.phase.minting id)
    (hsends : ∀ id scanKey, moved.phase = .sending id scanKey →
      Names publicOf state.secrets id scanKey) :
    Stable publicOf (state.setRequest index moved) where
  once id := by
    have honce := hstable.once id
    have hcount := minters_setRequest hrequest moved id
    have hle := hmints id
    omega
  absent id hminters := by
    have hcount := minters_setRequest hrequest moved id
    have hle := hmints id
    exact hstable.absent id (by omega)
  sends other hother := by
    rcases List.mem_or_eq_of_mem_set hother with hold | hnew
    · exact hstable.sends other hold
    · rw [hnew]
      exact hsends
  handed := hstable.handed
  tracked := hstable.tracked

theorem minting_pos_of_storing
    (hphase : request.phase = .storing id secret) :
    request.phase.minting id = 1 := by
  simp [hphase, RequestPhase.minting]

omit [DecidableEq Id] in
theorem Names.of_absent {secrets : Id → Option Secret} {scanKey : Public}
    (hnames : Names publicOf secrets id scanKey) : secrets id ≠ none := by
  obtain ⟨secret, hsecret, _⟩ := hnames
  simp [hsecret]

/-- What is stored where there was nothing leaves every other name. -/
theorem Names.update {secrets : Id → Option Secret} {scanKey : Public}
    {other : Id} (habsent : secrets id = none)
    (hnames : Names publicOf secrets other scanKey) :
    Names publicOf (Function.update secrets id (some secret)) other
      scanKey := by
  have hne : other ≠ id := by
    rintro rfl
    exact hnames.of_absent habsent
  obtain ⟨named, hnamed, hkey⟩ := hnames
  exact ⟨named, by rw [Function.update_of_ne hne, hnamed], hkey⟩

/-- The only task which mints for the allocation stores its secret. -/
theorem Stable.storeScanSecret (hstable : Stable publicOf state)
    (hrequest : state.requests[index]? = some request)
    (hphase : request.phase = .storing id secret)
    (hmints : ∀ id, moved.phase.minting id = 0)
    (hsends : ∀ other scanKey, moved.phase = .sending other scanKey →
      other = id ∧ scanKey = publicOf secret) :
    Stable publicOf
      ((state.storeScanSecret id secret).setRequest index moved) := by
  have hminting := minting_pos_of_storing hphase
  have hcount : ∀ other,
      ((state.storeScanSecret id secret).setRequest index moved).minters
        other + request.phase.minting other = state.minters other := by
    intro other
    have hset := minters_setRequest hrequest moved other
    rw [hmints other] at hset
    exact hset
  have hone := hstable.once id
  have habsent : state.secrets id = none := by
    have hid := hcount id
    exact hstable.absent id (by omega)
  refine ⟨?_, ?_, ?_, ?_, ?_⟩
  · intro other
    have honce := hstable.once other
    have hother := hcount other
    omega
  · intro other hminters
    have hother := hcount other
    have hne : other ≠ id := by
      rintro rfl
      omega
    change Function.update state.secrets id (some secret) other = none
    rw [Function.update_of_ne hne]
    exact hstable.absent other (by omega)
  · intro other hother key scanKey hsending
    rcases List.mem_or_eq_of_mem_set hother with hold | hnew
    · exact (hstable.sends other hold key scanKey hsending).update habsent
    · rw [hnew] at hsending
      obtain ⟨rfl, rfl⟩ := hsends key scanKey hsending
      exact ⟨secret, Function.update_self _ _ _, rfl⟩
  · intro other scanKey hevent
    rcases List.mem_cons.mp hevent with heq | hold
    · cases heq
    · exact (hstable.handed other scanKey hold).update habsent
  · intro other scanKey hevent
    rcases List.mem_cons.mp hevent with heq | hold
    · cases heq
    · exact (hstable.tracked other scanKey hold).update habsent

@[simp] theorem minting_idle :
    (RequestPhase.idle : RequestPhase Id Secret Public).minting id = 0 := rfl

@[simp] theorem minting_sending (other : Id) (scanKey : Public) :
    (RequestPhase.sending other scanKey :
      RequestPhase Id Secret Public).minting id = 0 := rfl

/-- A task which finds no secret takes up the minting, alone. -/
theorem Stable.takeUp (hstable : Stable publicOf state)
    (hrequest : state.requests[index]? = some request)
    (habsent : state.secrets id = none) (halone : state.minters id = 0) :
    Stable publicOf
      (state.setRequest index (request.moved (.drawing id))) := by
  have hcount : ∀ other,
      (state.setRequest index (request.moved (.drawing id))).minters other ≤
        state.minters other + if id = other then 1 else 0 := by
    intro other
    have hset := minters_setRequest hrequest (request.moved (.drawing id))
      other
    simp only [DataRequest.moved, RequestPhase.minting] at hset ⊢
    omega
  refine ⟨?_, ?_, ?_, hstable.handed, hstable.tracked⟩
  · intro other
    have honce := hstable.once other
    have hother := hcount other
    split at hother
    · next heq =>
        subst heq
        omega
    · omega
  · intro other hminters
    by_cases heq : id = other
    · exact heq ▸ habsent
    · have hother := hcount other
      rw [if_neg heq] at hother
      exact hstable.absent other (by omega)
  · intro other hother key scanKey hsending
    rcases List.mem_or_eq_of_mem_set hother with hold | hnew
    · exact hstable.sends other hold key scanKey hsending
    · rw [hnew] at hsending
      cases hsending

theorem Stable.readStep (hstable : Stable publicOf state)
    (hrequest : state.requests[index]? = some request)
    (halone : state.minters id = 0) (ok : Bool) :
    Stable publicOf (state.readStep publicOf index request id ok) := by
  unfold ScanState.readStep
  split
  · split
    · next existing hexisting =>
        refine hstable.setRequest hrequest (fun _ => by
          simp [DataRequest.moved]) ?_
        rintro other scanKey hsending
        cases hsending
        exact ⟨existing, hexisting, rfl⟩
    · next habsent => exact hstable.takeUp hrequest habsent halone
  · refine hstable.setRequest hrequest (fun _ => by
      simp [DataRequest.moved]) ?_
    rintro other scanKey ⟨⟩

theorem Stable.storeStep (hstable : Stable publicOf state)
    (hrequest : state.requests[index]? = some request)
    (hphase : request.phase = .storing id secret)
    (outcome : WriteOutcome) :
    Stable publicOf
      (state.storeStep publicOf index request id secret outcome) := by
  cases outcome with
  | committed =>
      refine hstable.storeScanSecret hrequest hphase (fun _ => rfl) ?_
      rintro other scanKey hsending
      cases hsending
      exact ⟨rfl, rfl⟩
  | failed =>
      refine hstable.setRequest hrequest (fun _ => by
        simp [DataRequest.moved]) ?_
      rintro other scanKey ⟨⟩
  | committedUnreported =>
      refine hstable.storeScanSecret hrequest hphase (fun _ => rfl) ?_
      rintro other scanKey ⟨⟩

theorem Stable.sendStep {scanKey : Public} (hstable : Stable publicOf state)
    (hrequest : state.requests[index]? = some request)
    (hphase : request.phase = .sending id scanKey) (received : Bool) :
    Stable publicOf
      (state.sendStep index request id scanKey received) := by
  have hnames := hstable.sends request (List.mem_of_getElem? hrequest) id
    scanKey hphase
  unfold ScanState.sendStep
  split
  · have hmoved : Stable publicOf
        (state.setRequest index (request.delivered id scanKey)) := by
      refine hstable.setRequest hrequest (fun _ => by
        simp [DataRequest.delivered]) ?_
      rintro other key ⟨⟩
    refine { hmoved with handed := ?_, tracked := ?_ }
    · intro other key hevent
      rcases List.mem_cons.mp hevent with heq | hold
      · cases heq
        exact hnames
      · exact hstable.handed other key hold
    · intro other key hevent
      rcases List.mem_cons.mp hevent with heq | hold
      · cases heq
      · exact hstable.tracked other key hold
  · refine hstable.setRequest hrequest (fun _ => by
      simp [DataRequest.abandoned]) ?_
    rintro other key ⟨⟩

theorem Stable.requestStep {action : ScanAction Id Secret}
    (hstable : Stable publicOf state)
    (hrequest : state.requests[index]? = some request)
    (halone : ∀ at' ok, action = .read at' ok →
      ∀ id, request.phase = .reading id → state.minters id = 0)
    (hnext : state.requestStep publicOf index request action = some after) :
    Stable publicOf after := by
  cases action with
  | take at' =>
      simp only [ScanState.requestStep] at hnext
      split at hnext
      · cases hnext
        refine hstable.setRequest hrequest (fun _ => by
          simp [RequestPhase.minting]) ?_
        rintro other scanKey ⟨⟩
      · cases hnext
  | reconciled at' ok =>
      simp only [ScanState.requestStep] at hnext
      split at hnext
      · cases hnext
        refine hstable.setRequest hrequest (fun _ => by
          cases ok <;> simp [DataRequest.moved, RequestPhase.minting]) ?_
        rintro other scanKey hsending
        cases ok <;> cases hsending
      · cases hnext
  | read at' ok =>
      simp only [ScanState.requestStep] at hnext
      split at hnext
      · next id hphase =>
          cases hnext
          exact hstable.readStep hrequest (halone at' ok rfl id hphase) ok
      · cases hnext
  | draw at' secret =>
      simp only [ScanState.requestStep] at hnext
      split at hnext
      · next id hphase =>
          cases hnext
          refine hstable.setRequest hrequest (fun other => ?_) ?_
          · cases secret <;>
              simp [DataRequest.moved, RequestPhase.minting, hphase]
          · rintro other scanKey hsending
            cases secret <;> cases hsending
      · cases hnext
  | store at' outcome =>
      simp only [ScanState.requestStep] at hnext
      split at hnext
      · next id secret hphase =>
          cases hnext
          exact hstable.storeStep hrequest hphase outcome
      · cases hnext
  | send at' received =>
      simp only [ScanState.requestStep] at hnext
      split at hnext
      · next id scanKey hphase =>
          cases hnext
          exact hstable.sendStep hrequest hphase received
      · cases hnext
  | request | notify | sweep | restart => cases hnext

theorem Stable.step {action : ScanAction Id Secret}
    (hstable : Stable publicOf state)
    (halone : ∀ at' ok, action = .read at' ok → at' = index ∧
      Alone state action)
    (hnext : ScanState.next.step publicOf state index action = some after) :
    Stable publicOf after := by
  obtain ⟨request, hrequest, hstep⟩ := Option.bind_eq_some_iff.mp hnext
  refine hstable.requestStep hrequest ?_ hstep
  rintro at' ok rfl id hphase
  obtain ⟨rfl, hread⟩ := halone at' ok rfl
  exact hread request hrequest id (by rw [hphase]; rfl)

theorem mem_sinceSweep_swept {other : Id}
    {event : ScanEvent Id Secret Public}
    {log : List (ScanEvent Id Secret Public)}
    (hevent : event ∈ sinceSweep other (.swept id :: log)) :
    other ≠ id ∧ event ∈ sinceSweep other log := by
  simp only [sinceSweep] at hevent
  split at hevent
  · cases hevent
  · next hne => exact ⟨fun heq => hne heq.symm, hevent⟩

theorem Stable.sweep (hstable : Stable publicOf state)
    (halone : state.minters id = 0 ∧
      ∀ request ∈ state.requests, request.phase.sends ≠ some id) :
    Stable publicOf (state.removeScanSecret id) := by
  have hnames : ∀ other scanKey, other ≠ id →
      Names publicOf state.secrets other scanKey →
      Names publicOf (Function.update state.secrets id none) other
        scanKey := by
    rintro other scanKey hne ⟨secret, hsecret, hkey⟩
    exact ⟨secret, by rw [Function.update_of_ne hne, hsecret], hkey⟩
  refine ⟨hstable.once, ?_, ?_, ?_, ?_⟩
  · intro other hminters
    by_cases heq : other = id
    · rw [heq]
      exact Function.update_self _ _ _
    · exact (Function.update_of_ne heq _ _).trans
        (hstable.absent other hminters)
  · intro request hrequest other scanKey hsending
    refine hnames other scanKey ?_
      (hstable.sends request hrequest other scanKey hsending)
    rintro rfl
    exact halone.2 request hrequest (by rw [hsending]; rfl)
  · intro other scanKey hevent
    obtain ⟨hne, hold⟩ := mem_sinceSweep_swept hevent
    exact hnames other scanKey hne (hstable.handed other scanKey hold)
  · intro other scanKey hevent
    obtain ⟨hne, hold⟩ := mem_sinceSweep_swept hevent
    exact hnames other scanKey hne (hstable.tracked other scanKey hold)

theorem Stable.next {action : ScanAction Id Secret}
    (hstable : Stable publicOf state) (halone : Alone state action)
    (hnext : state.next publicOf action = some after) :
    Stable publicOf after := by
  cases action with
  | request depositIds =>
      cases hnext
      have hminters : ∀ id, ({ state with
          requests := state.requests ++ [⟨depositIds, .idle, []⟩] } :
          ScanState Id Secret Public).minters id = state.minters id := by
        intro id
        simp [ScanState.minters]
      refine ⟨fun id => ?_, fun id hpos => ?_, ?_, hstable.handed,
        hstable.tracked⟩
      · rw [hminters]
        exact hstable.once id
      · rw [hminters] at hpos
        exact hstable.absent id hpos
      · intro request hrequest id scanKey hsending
        rcases List.mem_append.mp hrequest with hold | hnew
        · exact hstable.sends request hold id scanKey hsending
        · rw [List.mem_singleton.mp hnew] at hsending
          cases hsending
  | notify id ok =>
      simp only [ScanState.next] at hnext
      split at hnext
      · split at hnext
        · next secret hsecret =>
            cases hnext
            refine { hstable with handed := ?_, tracked := ?_ }
            · intro other scanKey hevent
              rcases List.mem_cons.mp hevent with heq | hold
              · cases heq
              · exact hstable.handed other scanKey hold
            · intro other scanKey hevent
              rcases List.mem_cons.mp hevent with heq | hold
              · cases heq
                exact ⟨secret, hsecret, rfl⟩
              · exact hstable.tracked other scanKey hold
        · cases hnext
          exact hstable
      · cases hnext
        exact hstable
  | sweep id removed =>
      cases removed with
      | true =>
          cases hnext
          exact hstable.sweep halone
      | false =>
          cases hnext
          exact hstable
  | restart =>
      cases hnext
      exact ⟨fun _ => Nat.zero_le _, fun _ hpos => absurd hpos (lt_irrefl 0),
        by rintro _ ⟨⟩, hstable.handed, hstable.tracked⟩
  | take at' | reconciled at' ok | draw at' secret | store at' outcome
  | send at' received =>
      exact hstable.step (by rintro _ _ ⟨⟩) hnext
  | read at' ok =>
      refine hstable.step ?_ hnext
      rintro _ _ heq
      cases heq
      exact ⟨rfl, halone⟩

/-! ## Written before it is handed out -/

/-- A secret of the scan key was written for the allocation. -/
def Written (publicOf : Secret → Public)
    (log : List (ScanEvent Id Secret Public)) (id : Id) (scanKey : Public) :
    Prop :=
  ∃ secret, .wrote id secret ∈ log ∧ publicOf secret = scanKey

/-- Deposit data was handed out only after the secret behind it was written. -/
def WrittenFirst (publicOf : Secret → Public) :
    List (ScanEvent Id Secret Public) → Prop
  | [] => True
  | .handed id scanKey :: earlier =>
      Written publicOf earlier id scanKey ∧ WrittenFirst publicOf earlier
  | _ :: earlier => WrittenFirst publicOf earlier

/-- What is stored, handed out or on its way was written. -/
structure Persisted (publicOf : Secret → Public)
    (state : ScanState Id Secret Public) : Prop where
  stored : ∀ id secret, state.secrets id = some secret →
    .wrote id secret ∈ state.log
  sends : ∀ request ∈ state.requests, ∀ id scanKey,
    request.phase = .sending id scanKey → Written publicOf state.log id scanKey
  handed : WrittenFirst publicOf state.log

omit [DecidableEq Id] in
theorem Written.cons {log : List (ScanEvent Id Secret Public)}
    {scanKey : Public} (hwritten : Written publicOf log id scanKey)
    (event : ScanEvent Id Secret Public) :
    Written publicOf (event :: log) id scanKey := by
  obtain ⟨secret, hwrote, hkey⟩ := hwritten
  exact ⟨secret, List.mem_cons_of_mem event hwrote, hkey⟩

omit [DecidableEq Id] in
theorem Persisted.setRequest (hpersisted : Persisted publicOf state)
    (hsends : ∀ id scanKey, moved.phase = .sending id scanKey →
      Written publicOf state.log id scanKey) :
    Persisted publicOf (state.setRequest index moved) where
  stored := hpersisted.stored
  sends other hother := by
    rcases List.mem_or_eq_of_mem_set hother with hold | hnew
    · exact hpersisted.sends other hold
    · rw [hnew]
      exact hsends
  handed := hpersisted.handed

omit [DecidableEq Id] in
/-- An event which is logged beside the secrets. -/
theorem Persisted.noted (hpersisted : Persisted publicOf state)
    (event : ScanEvent Id Secret Public)
    (hfirst : WrittenFirst publicOf (event :: state.log)) :
    Persisted publicOf { state with log := event :: state.log } where
  stored other found hfound :=
    List.mem_cons_of_mem event (hpersisted.stored other found hfound)
  sends request hrequest other scanKey hsending :=
    (hpersisted.sends request hrequest other scanKey hsending).cons event
  handed := hfirst

theorem Persisted.storeScanSecret (hpersisted : Persisted publicOf state) :
    Persisted publicOf (state.storeScanSecret id secret) := by
  refine { hpersisted.noted (.wrote id secret) hpersisted.handed with
    stored := ?_ }
  intro other found hfound
  by_cases heq : other = id
  · subst heq
    have hsame : some secret = some found :=
      (Function.update_self other _ _).symm.trans hfound
    cases hsame
    exact List.mem_cons_self
  · have hbefore : state.secrets other = some found :=
      (Function.update_of_ne heq _ _).symm.trans hfound
    exact List.mem_cons_of_mem _ (hpersisted.stored other found hbefore)

theorem Persisted.requestStep {action : ScanAction Id Secret}
    (hpersisted : Persisted publicOf state)
    (hrequest : request ∈ state.requests)
    (hnext : state.requestStep publicOf index request action = some after) :
    Persisted publicOf after := by
  cases action with
  | take at' =>
      simp only [ScanState.requestStep] at hnext
      split at hnext
      · cases hnext
        exact hpersisted.setRequest (by rintro _ _ ⟨⟩)
      · cases hnext
  | reconciled at' ok =>
      simp only [ScanState.requestStep] at hnext
      split at hnext
      · cases hnext
        refine hpersisted.setRequest ?_
        rintro other scanKey hsending
        cases ok <;> cases hsending
      · cases hnext
  | read at' ok =>
      simp only [ScanState.requestStep, ScanState.readStep] at hnext
      split at hnext
      · split at hnext
        · split at hnext
          · next existing hexisting =>
              cases hnext
              refine hpersisted.setRequest ?_
              rintro other scanKey hsending
              cases hsending
              exact ⟨existing, hpersisted.stored _ _ hexisting, rfl⟩
          · cases hnext
            exact hpersisted.setRequest (by rintro _ _ ⟨⟩)
        · cases hnext
          exact hpersisted.setRequest (by rintro _ _ ⟨⟩)
      · cases hnext
  | draw at' secret =>
      simp only [ScanState.requestStep] at hnext
      split at hnext
      · cases hnext
        refine hpersisted.setRequest ?_
        rintro other scanKey hsending
        cases secret <;> cases hsending
      · cases hnext
  | store at' outcome =>
      simp only [ScanState.requestStep] at hnext
      split at hnext
      · next id secret hphase =>
          cases hnext
          cases outcome with
          | committed =>
              refine hpersisted.storeScanSecret.setRequest ?_
              rintro other scanKey hsending
              cases hsending
              exact ⟨secret, List.mem_cons_self, rfl⟩
          | failed => exact hpersisted.setRequest (by rintro _ _ ⟨⟩)
          | committedUnreported =>
              exact hpersisted.storeScanSecret.setRequest (by rintro _ _ ⟨⟩)
      · cases hnext
  | send at' received =>
      simp only [ScanState.requestStep, ScanState.sendStep] at hnext
      split at hnext
      · next id scanKey hphase =>
          have hsent := hpersisted.sends request hrequest id scanKey hphase
          split at hnext
          · cases hnext
            have hmoved : Persisted publicOf
                (state.setRequest index (request.delivered id scanKey)) :=
              hpersisted.setRequest (by rintro _ _ ⟨⟩)
            exact hmoved.noted (.handed id scanKey) ⟨hsent, hmoved.handed⟩
          · cases hnext
            exact hpersisted.setRequest (by rintro _ _ ⟨⟩)
      · cases hnext
  | request | notify | sweep | restart => cases hnext

theorem Persisted.next {action : ScanAction Id Secret}
    (hpersisted : Persisted publicOf state)
    (hnext : state.next publicOf action = some after) :
    Persisted publicOf after := by
  cases action with
  | request depositIds =>
      cases hnext
      refine { hpersisted with sends := ?_ }
      intro request hrequest id scanKey hsending
      rcases List.mem_append.mp hrequest with hold | hnew
      · exact hpersisted.sends request hold id scanKey hsending
      · rw [List.mem_singleton.mp hnew] at hsending
        cases hsending
  | notify id ok =>
      simp only [ScanState.next] at hnext
      split at hnext
      · split at hnext
        · next secret hsecret =>
            cases hnext
            exact hpersisted.noted (.tracked id (publicOf secret))
              hpersisted.handed
        · cases hnext
          exact hpersisted
      · cases hnext
        exact hpersisted
  | sweep id removed =>
      cases removed with
      | false =>
          cases hnext
          exact hpersisted
      | true =>
          cases hnext
          refine { hpersisted.noted (.swept id) hpersisted.handed with
            stored := ?_ }
          intro other secret hsecret
          by_cases heq : other = id
          · change Function.update state.secrets id none other = some secret
              at hsecret
            rw [heq, Function.update_self] at hsecret
            cases hsecret
          · have hbefore : state.secrets other = some secret :=
              (Function.update_of_ne heq _ _).symm.trans hsecret
            exact List.mem_cons_of_mem _
              (hpersisted.stored other secret hbefore)
  | restart =>
      cases hnext
      exact { hpersisted with sends := by rintro _ ⟨⟩ }
  | take | reconciled | read | draw | store | send =>
      obtain ⟨request, hrequest, hstep⟩ := Option.bind_eq_some_iff.mp hnext
      exact hpersisted.requestStep (List.mem_of_getElem? hrequest) hstep

end

/-- All deposit data which the Exit was handed of the allocation since it was
last swept carries the scan key of the stored secret, and its deposits were
tracked under this key. -/
structure OneIdentity (publicOf : Secret → Public)
    (state : ScanState Id Secret Public) (id : Id) (scanKey : Public) :
    Prop where
  stored : ∃ secret, state.secrets id = some secret ∧
    .wrote id secret ∈ state.log ∧ publicOf secret = scanKey
  handed : ∀ other, .handed id other ∈ sinceSweep id state.log →
    other = scanKey
  tracked : ∀ other, .tracked id other ∈ sinceSweep id state.log →
    other = scanKey

theorem persisted_of_reachable {publicOf : Secret → Public}
    {state : ScanState Id Secret Public}
    (hreach : (scanIdentities publicOf).Reachable state) :
    Persisted publicOf state := by
  apply hreach.invariant
  · rintro start ⟨hsecrets, hrequests, hlog⟩
    refine ⟨?_, ?_, ?_⟩
    · simp [hsecrets]
    · simp [hrequests]
    · rw [hlog]
      trivial
  · intro before action after hbefore hnext
    exact hbefore.next hnext

/-- Whatever the order of the steps, deposit data reaches the Exit only after
the secret behind it was written.  Where no allocation is read while another
task mints for it, or swept while it is asked for, the Exit holds one identity
of an allocation since its last sweep. -/
theorem oneIdentity {publicOf : Secret → Public}
    {state : ScanState Id Secret Public}
    (hreach : (scanIdentities publicOf).Reachable state) :
    WrittenFirst publicOf state.log ∧
      ((scanIdentities publicOf).ReachableWithin Alone state →
        ∀ id scanKey, .handed id scanKey ∈ sinceSweep id state.log →
          OneIdentity publicOf state id scanKey) := by
  have hpersisted := persisted_of_reachable hreach
  refine ⟨hpersisted.handed, ?_⟩
  intro hwithin id scanKey hhanded
  have hstable : Stable publicOf state := by
    apply hwithin.invariant
    · rintro start ⟨hsecrets, hrequests, hlog⟩
      refine ⟨?_, ?_, ?_, ?_, ?_⟩
      all_goals simp [ScanState.minters, hrequests, hlog, sinceSweep]
    · intro before action after hbefore halone hnext
      exact hbefore.next halone hnext
  obtain ⟨secret, hsecret, hkey⟩ := hstable.handed id scanKey hhanded
  have hsame : ∀ other, Names publicOf state.secrets id other →
      other = scanKey := by
    rintro other ⟨named, hnamed, hother⟩
    rw [hsecret, Option.some.injEq] at hnamed
    exact hother.symm.trans (hnamed ▸ hkey)
  exact
    { stored := ⟨secret, hsecret, hpersisted.stored _ _ hsecret, hkey⟩
      handed := fun other hother => hsame other (hstable.handed _ _ hother)
      tracked := fun other hother => hsame other (hstable.tracked _ _ hother) }

/-! ## Two requests for one allocation -/

abbrev ScanAct := ScanAction ℕ ℕ

def noIdentities : ScanState ℕ ℕ ℕ := ⟨fun _ => none, [], []⟩

theorem noIdentities_init :
    (scanIdentities id : TransitionSystem (ScanState ℕ ℕ ℕ) ScanAct).init
      noIdentities :=
  ⟨fun _ => rfl, rfl, rfl⟩

/-- A request up to the read of its allocation. -/
def upToRead (index : ℕ) : List ScanAct :=
  [.request [7], .take index, .reconciled index true]

/-- The rest of a request which finds no secret. -/
def minting (index secret : ℕ) : List ScanAct :=
  [.draw index (some secret), .store index .committed, .send index true]

/-- The second request is handed what the first one stored; the allocation is
tracked and swept, and the third request draws a new secret. -/
def askedAgain : List ScanAct :=
  upToRead 0 ++ [.read 0 true] ++ minting 0 3 ++ upToRead 1 ++
    [.read 1 true, .send 1 true, .notify 7 true, .sweep 7 true] ++
    upToRead 2 ++ [.read 2 true] ++ minting 2 4

theorem oneIdentity_again :
    ∃ state : ScanState ℕ ℕ ℕ,
      state.log.count (.handed 7 3) = 2 ∧ WrittenFirst id state.log ∧
        OneIdentity id state 7 4 := by
  have hinit : (scanIdentities id).ReachableWithin Alone noIdentities :=
    .init noIdentities_init
  have hrun : (scanIdentities id).run noIdentities askedAgain = some _ := rfl
  have halone : (scanIdentities id).Throughout
      (fun before action _ => Alone before action) noIdentities
      askedAgain := by decide
  have hreach := (TransitionSystem.Reachable.init noIdentities_init).run
    askedAgain hrun
  obtain ⟨hwritten, hone⟩ := oneIdentity hreach
  exact ⟨_, by decide, hwritten,
    hone (hinit.throughout halone hrun) 7 4 List.mem_cons_self⟩

/-- Two requests which both find no secret: the Exit holds two identities, and
the secret of the first is gone. -/
theorem oneIdentity_not_always :
    ¬ ∀ state : ScanState ℕ ℕ ℕ, (scanIdentities id).Reachable state →
      ∀ allocation scanKey,
        .handed allocation scanKey ∈ sinceSweep allocation state.log →
          OneIdentity id state allocation scanKey := by
  intro hclaim
  have hreach := (TransitionSystem.Reachable.init noIdentities_init).run
    (upToRead 0 ++ upToRead 1 ++ [.read 0 true, .read 1 true] ++
      minting 0 3 ++ minting 1 4) rfl
  have hone := hclaim _ hreach 7 3 (by decide)
  have hother := hone.handed 4 List.mem_cons_self
  cases hother

end HoprStrategy.Curvy.ScanIdentity
