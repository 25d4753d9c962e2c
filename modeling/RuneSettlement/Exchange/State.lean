import RuneSettlement.Exchange.Views
import RuneSettlement.KeyRing
import RuneSettlement.Settlement.Calls

/-!
# The exchange

An exchange settles transactions under one configuration and has a primary pool, whose token is the
reward token. Queries read the committed state.
-/

namespace RuneSettlement

structure Exchange where
  config : Config
  settlement : Settlement
  /-- The address of the primary pool, once it is registered. -/
  primary : Option Address
  deriving DecidableEq

namespace Exchange

def create (config : Config) : Exchange := ⟨config, .ofConfig config, none⟩

def settle {α : Type} (call : SettlementM α) (e : Exchange) : Outcome α × Exchange :=
  let (result, settlement) := call e.settlement
  (result, { e with settlement })

/-- What to spend and to pay for a registration on the primary pool. -/
def registerInfo (e : Exchange) : Outcome RegisterInfo := do
  let address ← Outcome.ofOption .poolNotFound e.primary
  let pool ← e.settlement.registry.require address
  let utxo ← Outcome.ofOption .emptyPool pool.nativeUtxo?
  return {
    untweaked := pool.keys.untweaked
    tweaked := pool.keys.tweaked
    address
    utxo
    registerFee := e.config.registerFee
    nonce := pool.nonce }

def status (e : Exchange) (pool : Address) (txid : String) : Outcome (Option TxStatus) := do
  return e.settlement.status? pool (← Txid.parse txid)

/-- The floor at a queue length, the same for every pool. -/
def minimalValue (e : Exchange) (request : FloorRequest) : Sats :=
  e.settlement.minimalValue request.queueLength

def poolInfo? (e : Exchange) (request : PoolRequest) : Option PoolInfo :=
  e.settlement.registry.poolInfo? request.pool

/-- A page of pools, of the greatest page size at most. -/
def poolPage (e : Exchange) (request : PageRequest) : List PoolInfo :=
  e.settlement.registry.page request.start (min request.limit.toNat e.config.maxPageSize.toNat)

def account (e : Exchange) (id : Address) : AccountView where
  claimCooldown := e.config.claimCooldown
  registerFee := e.config.registerFee
  maxRewards := e.config.maxRewards
  remainingRewards := e.settlement.accounts.remainingRewards
  account := e.settlement.accounts.get? id

end Exchange

end RuneSettlement
