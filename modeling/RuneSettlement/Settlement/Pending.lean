import RuneSettlement.Account
import RuneSettlement.Plan
import RuneSettlement.ResolutionLog

/-!
# Staged transactions

What is known of a transaction between its execution and its resolution.
-/

namespace RuneSettlement

/-- An execution that passed every check and is not staged yet. -/
structure Prepared where
  txid : Txid
  payload : Bytes
  plan : Plan
  effect : AccountEffect
  deriving DecidableEq

/-- The transaction that waits for its resolution on one pool. -/
structure PendingTransaction where
  txid : Txid
  pool : Address
  set : IntentionSet
  index : BitVec 32
  payload : Bytes
  staged : Pool
  inflow : Reserves
  outflow : Reserves
  effect : AccountEffect
  createdAt : Timestamp
  deriving DecidableEq

/-- What a signer needs to know of a staged transaction. -/
structure StagedExecution where
  txid : Txid
  pool : Address
  /-- The untweaked key of the pool, its handle for resolutions. -/
  poolKey : String
  path : DerivationPath
  payload : Bytes
  deriving DecidableEq

inductive TxStatus
  | pending
  | resolved (resolution : Resolution)
  deriving DecidableEq

namespace Prepared

def pendingTransaction (p : Prepared) (request : ExecuteRequest) (now : Timestamp) :
    PendingTransaction where
  txid := p.txid
  pool := p.plan.staged.address
  set := request.set
  index := request.index
  payload := p.payload
  staged := p.plan.staged
  inflow := p.plan.inflow
  outflow := p.plan.outflow
  effect := p.effect
  createdAt := now

def stagedExecution (p : Prepared) : StagedExecution where
  txid := p.txid
  pool := p.plan.staged.address
  poolKey := p.plan.staged.keys.untweaked
  path := p.plan.staged.keys.path
  payload := p.payload

end Prepared

end RuneSettlement
