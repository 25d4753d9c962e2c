import RuneSettlement.Exchange.State

/-!
# Calls in sections

A call that needs the key service or the rune indexer is cut at its questions to them: a `Section`
runs on the state without interruption, an `Inquiry` waits for a reply and holds no state. Between
two stages of a call any sections of other calls may run, so a section checks anew what an earlier
one has checked.
-/

namespace RuneSettlement

inductive Request
  | initKey
  | createPool (name : String) (token : CoinId) (depositAmount : Amount) (attributes : String)
  | deposit (pool : Address) (runeLeg nativeLeg : Utxo)
  | execute (request : ExecuteRequest)
  | finalize (request : ResolveRequest)
  | rollback (request : ResolveRequest)
  | claim (account : Address)
  | accrue (account : Address) (amount : Amount)
  deriving DecidableEq

inductive Answer
  | done
  | address (address : Address)
  /-- The payload with its signature, in hexadecimal. -/
  | signed (text : String)
  | amount (amount : Amount)
  deriving DecidableEq

/-- What a call asks of the key service or the rune indexer. -/
inductive Question
  | keys (path : DerivationPath)
  | signature (path : DerivationPath) (message : Bytes)
  | runeEntry (id : CoinId)
  | outputCoins (outpoint : OutPoint)
  deriving DecidableEq

def Reply : Question → Type
  | .keys _ => Outcome PoolKeys
  | .signature _ _ => Outcome Bytes
  | .runeEntry _ => Outcome (Option RuneEntry)
  | .outputCoins _ => Outcome (List Coin)

inductive Section
  | registerPrimary (keys : PoolKeys)
  | registerPool (pool : Pool)
  | takeDeposit (pool : Address) (runeLeg nativeLeg : Utxo)
  | stage (request : ExecuteRequest) (confirmed : List CoinId)
  /-- Rolls back what could not be signed. -/
  | undo (request : ExecuteRequest) (staged : StagedExecution) (refusal : Refusal)
  deriving DecidableEq

inductive Inquiry
  | primaryKeys (path : DerivationPath)
  | poolKeys (name : String) (token : CoinId) (depositAmount : Amount) (attributes : String)
  /-- Whether an output holds the coin that a leg declares, with the legs still to be asked for. -/
  | declaredCoin (pool : Address) (runeLeg nativeLeg : Utxo) (outpoint : OutPoint) (declared : Coin)
    (later : List (OutPoint × Coin))
  /-- Whether an unknown token exists, with the tokens still to be asked for and those confirmed. -/
  | unknownToken (request : ExecuteRequest) (id : CoinId) (later confirmed : List CoinId)
  | signature (request : ExecuteRequest) (staged : StagedExecution)
  deriving DecidableEq

/-- Where a call stands. -/
inductive Stage
  | run (next : Section)
  | ask (inquiry : Inquiry)
  | answered (result : Outcome Answer)

namespace Stage

/-- Asks for the coins that are left, then takes the deposit. -/
def checkLegs (pool : Address) (runeLeg nativeLeg : Utxo) : List (OutPoint × Coin) → Stage
  | [] => run (.takeDeposit pool runeLeg nativeLeg)
  | (outpoint, declared) :: later =>
    ask (.declaredCoin pool runeLeg nativeLeg outpoint declared later)

/-- Asks for the tokens that are left, then stages the transaction. -/
def confirmTokens (request : ExecuteRequest) (confirmed : List CoinId) : List CoinId → Stage
  | [] => run (.stage request confirmed)
  | id :: later => ask (.unknownToken request id later confirmed)

/-- The greatest number of stages before the answer. -/
def remaining : Stage → Nat
  | answered _ => 0
  | run (.stage _ _) => 3
  | run _ => 1
  | ask (.primaryKeys _) | ask (.poolKeys _ _ _ _) => 2
  | ask (.declaredCoin _ _ _ _ _ later) => later.length + 2
  | ask (.unknownToken _ _ later _) => later.length + 4
  | ask (.signature _ _) => 2

theorem remaining_checkLegs_le (pool : Address) (runeLeg nativeLeg : Utxo)
    (later : List (OutPoint × Coin)) :
    (checkLegs pool runeLeg nativeLeg later).remaining ≤ later.length + 1 := by
  cases later <;> simp [checkLegs, remaining]

theorem remaining_confirmTokens_le (request : ExecuteRequest) (confirmed later : List CoinId) :
    (confirmTokens request confirmed later).remaining ≤ later.length + 3 := by
  cases later <;> simp [confirmTokens, remaining]

end Stage

namespace Inquiry

def question : Inquiry → Question
  | primaryKeys path => .keys path
  | poolKeys name _ _ _ => .keys [utf8 name]
  | declaredCoin _ _ _ outpoint _ _ => .outputCoins outpoint
  | unknownToken _ id _ _ => .runeEntry id
  | signature _ staged => .signature staged.path staged.payload

def notHeld (outpoint : OutPoint) (declared : Coin) : Refusal :=
  .indexerDisagrees ("output " ++ outpoint.text ++ " does not hold " ++
    declared.value.toNat.repr ++ " of " ++ declared.id.text)

/-- The next stage of a call once the reply is in. -/
def hear : (i : Inquiry) → Reply i.question → Stage
  | primaryKeys _, .ok keys => .run (.registerPrimary keys)
  | primaryKeys _, .error refusal => .answered (.error refusal)
  | poolKeys name token depositAmount attributes, .ok keys =>
    .run (.registerPool (.create name keys token depositAmount attributes))
  | poolKeys _ _ _ _, .error refusal => .answered (.error refusal)
  | declaredCoin pool runeLeg nativeLeg outpoint declared later, .ok coins =>
    if declared ∈ coins then .checkLegs pool runeLeg nativeLeg later
    else .answered (.error (notHeld outpoint declared))
  | declaredCoin _ _ _ _ _ _, .error refusal => .answered (.error refusal)
  | unknownToken request id later confirmed, .ok (some _) =>
    .confirmTokens request (confirmed ++ [id]) later
  | unknownToken _ id _ _, .ok none => .answered (.error (.runeNotFound id))
  | unknownToken _ _ _ _, .error refusal => .answered (.error refusal)
  | signature _ staged, .ok bytes =>
    .answered (.ok (.signed (Hex.encode (staged.payload ++ bytes))))
  | signature request staged, .error refusal => .run (.undo request staged refusal)

theorem remaining_hear_lt (i : Inquiry) (reply : Reply i.question) :
    (i.hear reply).remaining < (Stage.ask i).remaining := by
  cases i with
  | primaryKeys path => cases reply <;> simp [hear, Stage.remaining]
  | poolKeys name token depositAmount attributes =>
    cases reply <;> simp [hear, Stage.remaining]
  | declaredCoin pool runeLeg nativeLeg outpoint declared later =>
    cases reply with
    | error refusal => simp [hear, Stage.remaining]
    | ok coins =>
      simp only [hear]
      split
      · exact Nat.lt_succ_of_le (Stage.remaining_checkLegs_le ..)
      · simp [Stage.remaining]
  | unknownToken request id later confirmed =>
    cases reply with
    | error refusal => simp [hear, Stage.remaining]
    | ok entry =>
      cases entry with
      | none => simp [hear, Stage.remaining]
      | some entry => exact Nat.lt_succ_of_le (Stage.remaining_confirmTokens_le ..)
  | signature request staged => cases reply <;> simp [hear, Stage.remaining]

end Inquiry

namespace Exchange

def alreadyInitialized : Refusal := .invalidState "key already initialized"

/-- Registers the primary pool, unless there is one. -/
def registerPrimary (e : Exchange) (keys : PoolKeys) : Outcome Answer × Exchange :=
  if e.primary.isSome then (.error alreadyInitialized, e)
  else
    let pool := Pool.create e.config.poolName keys e.config.runeId e.config.depositAmount ""
    match e.settle (Settlement.registerPool pool) with
    | (.ok (), e) => (.ok (.address keys.address), { e with primary := some keys.address })
    | (.error refusal, e) => (.error refusal, e)

/-- Runs a settlement call that answers a request. -/
def answerBy {α : Type} (answer : α → Answer) (call : SettlementM α) (e : Exchange) :
    Stage × Exchange :=
  let (result, e) := e.settle call
  (.answered (result.map answer), e)

end Exchange

/-- The next stage of a call after a section, and the state that the section leaves. -/
def Section.run (s : Section) (now : Timestamp) (e : Exchange) : Stage × Exchange :=
  match s with
  | registerPrimary keys =>
    let (result, e) := e.registerPrimary keys
    (.answered result, e)
  | registerPool pool =>
    e.answerBy (fun _ => .address pool.address) (Settlement.registerPool pool)
  | takeDeposit pool runeLeg nativeLeg =>
    e.answerBy (fun _ => .done) (Settlement.deposit pool runeLeg nativeLeg)
  | stage request confirmed =>
    match e.settle (Settlement.execute request confirmed now) with
    | (.ok staged, e) => (.ask (.signature request staged), e)
    | (.error refusal, e) => (.answered (.error refusal), e)
  | undo request staged refusal =>
    let (_, e) := e.settle (Settlement.rollback request.txid staged.poolKey)
    (.answered (.error refusal), e)

theorem Section.remaining_run_lt (s : Section) (now : Timestamp) (e : Exchange) :
    (s.run now e).1.remaining < (Stage.run s).remaining := by
  cases s with
  | stage request confirmed =>
    simp only [Section.run]
    split <;> simp [Stage.remaining]
  | _ => simp [Section.run, Exchange.answerBy, Stage.remaining]

namespace Exchange

/-- The rune coins that the legs of a deposit declare, with their outputs. -/
def declaredCoins (legs : List Utxo) : List (OutPoint × Coin) :=
  legs.filterMap fun leg => leg.rune.map fun coin => (leg.outpoint, coin)

/-- The first section of a call. -/
def begin (e : Exchange) (request : Request) (now : Timestamp) : Stage × Exchange :=
  match request with
  | .initKey =>
    if e.primary.isSome then (.answered (.error alreadyInitialized), e)
    else (.ask (.primaryKeys [e.config.runeId.toBytes]), e)
  | .createPool name token depositAmount attributes =>
    if token.isNative then (.answered (.error .invalidRuneId), e)
    else if name.isEmpty ∨ depositAmount = 0#128 then (.answered (.error .invalidInput), e)
    else (.ask (.poolKeys name token depositAmount attributes), e)
  | .deposit pool runeLeg nativeLeg =>
    (.checkLegs pool runeLeg nativeLeg (declaredCoins [runeLeg, nativeLeg]), e)
  | .execute request =>
    match e.settlement.prepare request now with
    | .ok prepared => (.confirmTokens request [] prepared.plan.unknownTokens, e)
    | .error refusal => (.answered (.error refusal), e)
  | .finalize request =>
    e.answerBy (fun _ => .done) (Settlement.finalize request.txid request.poolKey now)
  | .rollback request =>
    e.answerBy (fun _ => .done) (Settlement.rollback request.txid request.poolKey)
  | .claim account => e.answerBy .amount (Settlement.claim account now)
  | .accrue account amount => e.answerBy .amount (Settlement.accrue account amount)

end Exchange

end RuneSettlement
