import HoprStrategy.CurvyRelayAggregation

/-!
# Shielding the float

The float reaches the pool through an entry portal, funded from the Safe and
then shielded by the operator, or directly by one call of the Safe's module
through the shield router.  Either way the note is journalled first and is
booked once the chain knows it.
-/

namespace HoprStrategy.Curvy

open Library

/-- `str::contains`. -/
def textContains (text marker : String) : Bool :=
  decide (marker.toList <:+: text.toList)

namespace SdkM

variable {Fr : Type}

def isNonceConflict (message : String) : Bool :=
  let lowered := String.ofList (message.toList.map Char.toLower)
  ["nonce too low", "already known", "replacement transaction underpriced"].any
    (textContains lowered)

def nonceRetries : ℕ := 3

/-- Whether a poll saw the transaction count pass the nonce before the
deadline. -/
def nonceSettled (nonce : ℕ) : List (Except String ℕ) → Except String Bool
  | [] => .ok false
  | .error error :: _ => .error error
  | .ok count :: rest =>
      if nonce < count then .ok true else nonceSettled nonce rest

/-- Sends the module call at the current nonce.  After a nonce conflict the
contested nonce is waited out, and the call is sent again only when the chain
says that no copy of it executed. -/
def submitReconcilingNonceConflicts (call : Bytes)
    (alreadyExecuted : SdkM Fr Bool) : ℕ → SdkM Fr Unit
  | 0 => .throw (.funding "the Safe module call lost the nonce race")
  | retries + 1 => do
      let nonce ← (.call .transactionCount (.raise .funding) : SdkM Fr ℕ)
      match ← (.call (.sendModuleCall call nonce) .pure :
          SdkM Fr (Except String String)) with
      | .ok _ => return ()
      | .error message =>
          if isNonceConflict message then
            let polls ← (.call (.noncePolls nonce) .pure :
              SdkM Fr (List (Except String ℕ)))
            let settled ← .raise .funding (nonceSettled nonce polls)
            .require (settled = true) (.funding
              ("the nonce was still pending; not resubmitting the Safe " ++
                "module call while an earlier copy of it may yet land"))
            let executed ← alreadyExecuted
            if executed then return ()
            else submitReconcilingNonceConflicts call alreadyExecuted retries
          else .throw (.funding ("submitting the Safe module call: " ++ message))

/-- `ShieldLanded`: whether the aggregator knows the note. -/
def shieldLanded (config : SdkConfig Fr) (note : OwnedNote Fr) :
    SdkM Fr Bool :=
  .call (.noteStatus (config.codec.noteId note)) fun reply =>
    .raise .funding (reply.map fun status =>
      decide (status = 1 ∨ status = 2))

def parseAddress (config : SdkConfig Fr) (what address : String) :
    SdkM Fr Unit :=
  match config.addressText address with
  | none => return ()
  | some error => .throw (.invalidValue (what ++ ": " ++ error))

def requireShieldRouter (endpoints : CurvyChainEndpoints) :
    Except SdkError String :=
  match endpoints.shieldRouter with
  | some router => .ok router
  | none => .error (.discovery
      "Blokli names no Curvy shield router (`curvy_shield_router`)")

/-- A stated token id must name the token the Safe holds. -/
def checkVaultToken (config : SdkConfig Fr)
    (endpoints : CurvyChainEndpoints) : SdkM Fr Unit := do
  let token ← token
  if config.tokenConfigured then
    let vaultToken ← (.call (.vaultToken token) (.raise .discovery) :
      SdkM Fr String)
    .require (eqIgnoreAsciiCase vaultToken endpoints.tokenAddress = true)
      (.invalidValue
        "the configured token id is wrong for this deployment")
  else return ()

def shieldRouterChecked (config : SdkConfig Fr)
    (endpoints : CurvyChainEndpoints) : SdkM Fr String := do
  let router ← ofExcept (requireShieldRouter endpoints)
  parseAddress config "shield router address" router
  checkVaultToken config endpoints
  return router

/-- The router which was checked when the note was journalled, or else is
checked now. -/
def shieldRouter (config : SdkConfig Fr) (endpoints : CurvyChainEndpoints) :
    Option String → SdkM Fr String
  | some router => return router
  | none => shieldRouterChecked config endpoints

/-- The note's status once a submitted direct shield has confirmed. -/
def observeDirectShield (config : SdkConfig Fr) (note : OwnedNote Fr) :
    ℕ → SdkM Fr ℕ
  | 0 => .throw (.funding
      ("the direct shield transaction confirmed, but the Curvy aggregator " ++
        "does not know its note"))
  | attempts + 1 => do
      let status ← noteStatus (config.codec.noteId note)
      if status = 1 ∨ status = 2 then return status
      else observeDirectShield config note attempts

/-- Whether the funding already holds a note with this id. -/
def alreadyFunding [DecidableEq Fr] (config : SdkConfig Fr)
    (funding : List StoredNote) (note : OwnedNote Fr) : Except SdkError Bool :=
  (funding.mapM (StoredNote.toOwned config.codec)).map fun notes =>
    notes.any fun other =>
      config.codec.noteId other = config.codec.noteId note

/-- The state with a shielded note booked, apart from the journal entry. -/
def bookShielded (state : SdkState) (stored : StoredNote)
    (alreadyFunding : Bool) (observed : ℕ) : SdkState :=
  { state with
    funding :=
      if alreadyFunding then state.funding else state.funding ++ [stored]
    pending :=
      if observed ≠ 2 ∧ stored ∉ state.pending then state.pending ++ [stored]
      else state.pending }

section

variable [DecidableEq Fr]

/-- The journalled note, or a new one which is journalled before anything is
sent. -/
def directShieldNote (config : SdkConfig Fr)
    (endpoints : CurvyChainEndpoints) (gross : ℕ) :
    SdkM Fr (OwnedNote Fr × Option String) := do
  let state ← readState
  match state.directShieldInFlight with
  | some stored =>
      .require (stored.gross = gross) .shieldInProgress
      let note ← ofExcept (stored.note.toOwned config.codec)
      return (note, none)
  | none =>
      let router ← shieldRouterChecked config endpoints
      let token ← token
      let note ← (.call (.prepareDirectShield gross token) (.raise .sdk) :
        SdkM Fr (OwnedNote Fr))
      let state ← readState
      let next := { state with
        directShieldInFlight :=
          some ⟨StoredNote.ofOwned config.codec note, gross⟩ }
      writeState next
      save .journalDirectShield next
      return (note, some router)

/-- Sends the shield from the Safe and waits for the aggregator to know its
note. -/
def sendDirectShield (config : SdkConfig Fr)
    (endpoints : CurvyChainEndpoints) (gross : ℕ) (note : OwnedNote Fr)
    (router : Option String) : SdkM Fr ℕ := do
  let _ ← shieldRouter config endpoints router
  parseAddress config "token address" endpoints.tokenAddress
  parseAddress config "aggregator address" endpoints.aggregator
  let calldata ← (.call (.shieldCalldata note gross) (.raise .sdk) :
    SdkM Fr Bytes)
  let call ← (.call (.encodeRouterShield endpoints gross calldata)
    (.raise .funding) : SdkM Fr Bytes)
  submitReconcilingNonceConflicts call (shieldLanded config note) nonceRetries
  observeDirectShield config note directShieldObservations

def bookDirectShield (config : SdkConfig Fr) (note : OwnedNote Fr)
    (observed : ℕ) : SdkM Fr Unit := do
  let state ← readState
  let stored := StoredNote.ofOwned config.codec note
  let alreadyFunding ← ofExcept (alreadyFunding config state.funding note)
  let next := { bookShielded state stored alreadyFunding observed with
    directShieldInFlight := none }
  writeState next
  save .bookDirectShield next

def directShield (config : SdkConfig Fr) (gross : ℕ) :
    SdkM Fr (List TxLedger) := do
  .require (config.shielder = true) (.invalidValue
    "direct shielding was selected but the pool was built without a shielder")
  let endpoints ← client
  let (note, router) ← directShieldNote config endpoints gross
  let status ← noteStatus (config.codec.noteId note)
  if status = 1 ∨ status = 2 then
    bookDirectShield config note status
    recoverPending config
  else
    let observed ← sendDirectShield config endpoints gross note router
    bookDirectShield config note observed
    recoverPending config

/-- The journalled shield, or a new one which is journalled before the portal
is funded. -/
def portalShield (config : SdkConfig Fr) (gross : ℕ) (recovery : String) :
    SdkM Fr StoredShield := do
  let state ← readState
  match state.shieldInFlight with
  | some shield =>
      .require (shield.gross = gross ∧ shield.recovery = recovery)
        .shieldInProgress
      return shield
  | none =>
      let token ← token
      let prepared ← (.call (.prepareDeposit gross token recovery)
        (.raise .sdk) : SdkM Fr (PreparedDeposit Fr))
      let shield : StoredShield :=
        ⟨StoredNote.ofOwned config.codec prepared.note, prepared.gross,
          prepared.recovery, prepared.portalAddress, .prepared⟩
      let state ← readState
      let next := { state with shieldInFlight := some shield }
      writeState next
      save .journalShield next
      return shield

/-- `StoredShield::prepared`. -/
def StoredShield.preparedDeposit (config : SdkConfig Fr)
    (shield : StoredShield) : Except SdkError (PreparedDeposit Fr) :=
  if shield.gross < 2 ^ 128 then
    (shield.note.toOwned config.codec).map fun note =>
      ⟨note, shield.gross, shield.recovery, shield.portalAddress⟩
  else .error (.invalidValue
    "shield gross: number too large to fit in target type")

/-- What the portal holds, after the Safe has paid an empty one. -/
def fundedPortal (config : SdkConfig Fr) (endpoints : CurvyChainEndpoints)
    (gross : ℕ) (portal : String) : SdkM Fr ℕ := do
  let balance ← erc20Balance endpoints.tokenAddress portal
  if balance = 0 then
    parseAddress config "shield portal address" portal
    let _ ← (.call (.fundPortal portal gross) (.raise .funding) :
      SdkM Fr Unit)
    erc20Balance endpoints.tokenAddress portal
  else return balance

/-- Brings a prepared shield to the funded stage. -/
def fundShield (config : SdkConfig Fr) (endpoints : CurvyChainEndpoints)
    (gross : ℕ) (shield : StoredShield) : SdkM Fr Unit :=
  match shield.stage with
  | .funded => return ()
  | .prepared => do
      let balance ← fundedPortal config endpoints gross shield.portalAddress
      .require (balance = gross) (.unexpectedShieldFunding balance gross)
      let state ← readState
      let next := { state with
        shieldInFlight := some { shield with stage := .funded } }
      writeState next
      save .markShieldFunded next

def bookShield (config : SdkConfig Fr) (note : OwnedNote Fr)
    (observed : ℕ) : SdkM Fr Unit := do
  let state ← readState
  let stored := StoredNote.ofOwned config.codec note
  let alreadyFunding ← ofExcept (alreadyFunding config state.funding note)
  let next := { bookShielded state stored alreadyFunding observed with
    shieldInFlight := none }
  writeState next
  save .bookShield next

def shieldThroughPortal (config : SdkConfig Fr)
    (endpoints : CurvyChainEndpoints) (gross : ℕ) (recovery : String) :
    SdkM Fr (List TxLedger) := do
  let shield ← portalShield config gross recovery
  let prepared ← ofExcept (StoredShield.preparedDeposit config shield)
  let status ← noteStatus (config.codec.noteId prepared.note)
  if status = 1 ∨ status = 2 then
    bookShield config prepared.note status
    recoverPending config
  else
    fundShield config endpoints gross shield
    let entry ← (.call (.shieldPreparedDeposit prepared) (.raise .sdk) :
      SdkM Fr TxLedger)
    bookShield config prepared.note status
    let ledger ← recoverPending config
    return entry :: ledger

/-- Shields the initial funding if there is none yet. -/
def shield (config : SdkConfig Fr) (gross : ℕ) (recovery : String) :
    SdkM Fr (List TxLedger) := do
  let endpoints ← client
  let _ ← reconcileRelayAggregation config
  let _ ← recoverPending config
  let state ← readState
  if ¬ state.funding.isEmpty ∧ state.shieldInFlight.isNone ∧
      state.directShieldInFlight.isNone then return []
  else if config.shielding = .direct then directShield config gross
  else shieldThroughPortal config endpoints gross recovery

/-- `ensure_funded`: the gross amount must fit 128 bits. -/
def ensureFunded (config : SdkConfig Fr) (gross : HoprBalance)
    (recovery : String) : SdkM Fr Unit := do
  .require (gross.wei < 2 ^ 128)
    (.invalidValue (config.balanceText gross ++ " does not fit u128"))
  let _ ← shield config gross.wei recovery
  return ()

end

end SdkM

end HoprStrategy.Curvy
