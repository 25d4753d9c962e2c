import RuneSettlement.Pool

/-!
# Intentions

An intention is one leg of a transaction: the coins that come into one pool and go out of it, and
the outputs of the pool that are spent and created. Outpoints and the action are still text.
-/

namespace RuneSettlement

structure InputCoin where
  source : Address
  coin : Coin
  deriving DecidableEq

structure OutputCoin where
  destination : Address
  coin : Coin
  deriving DecidableEq

structure Intention where
  exchangeId : String
  action : String
  parameters : String
  pool : Address
  /-- The nonce of the pool that the intention was made for. -/
  nonce : Nonce
  spends : List String
  receives : List String
  inputs : List InputCoin
  outputs : List OutputCoin
  deriving DecidableEq

/-- The intentions of one transaction. -/
structure IntentionSet where
  initiator : Address
  intentions : List Intention
  deriving DecidableEq

def IntentionSet.select (set : IntentionSet) (index : BitVec 32) : Outcome Intention :=
  Outcome.ofOption .invalidInput set.intentions[index.toNat]?

inductive Action
  | swap
  | addLiquidity
  | register
  | withdraw
  deriving DecidableEq

namespace Action

def text : Action → String
  | swap => "swap"
  | addLiquidity => "add_liquidity"
  | register => "register"
  | withdraw => "withdraw"

def all : List Action := [swap, addLiquidity, register, withdraw]

def parse (text : String) : Outcome Action :=
  Outcome.ofOption .invalidInput (all.find? fun action => decide (action.text = text))

end Action

/-- A request to execute one intention of a set. -/
structure ExecuteRequest where
  /-- The signed transaction, in hexadecimal. -/
  payload : String
  txid : String
  set : IntentionSet
  index : BitVec 32
  /-- The number of transactions that wait for their first confirmation. -/
  queueLength : BitVec 32
  deriving DecidableEq

/-- A request to finalize or to roll back a transaction on the pool with a given key. -/
structure ResolveRequest where
  txid : String
  poolKey : String
  deriving DecidableEq

structure FloorRequest where
  pool : Address
  queueLength : BitVec 32
  deriving DecidableEq

structure PoolRequest where
  pool : Address
  deriving DecidableEq

structure PageRequest where
  /-- The last address of the page before, if there is one. -/
  start : Option Address
  limit : BitVec 32
  deriving DecidableEq

end RuneSettlement
