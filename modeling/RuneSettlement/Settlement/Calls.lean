import RuneSettlement.Settlement.State

/-!
# Settlement calls

A transaction on a pool is executed, and then finalized or rolled back. `execute` stages the pool
after the transaction in the pool's pending slot and touches nothing committed; `finalize` checks
the flows, commits the staged pool and applies the account effect; `rollback` empties the slot. A
repeated `finalize` or `rollback` is answered from the resolution log.
-/

namespace RuneSettlement

/-- A call on the settlement state. What it wrote before it was refused stays written. -/
abbrev SettlementM := ExceptT Refusal (StateM Settlement)

namespace Settlement

def ofOutcome {α : Type} (x : Outcome α) : SettlementM α := ExceptT.mk (pure x)

def registerPool (pool : Pool) : SettlementM Unit := do
  let s ← get
  let registry ← ofOutcome (s.registry.register pool)
  set { s with registry }

/-- Admits the first deposit of a pool and records it as an inflow. -/
def deposit (pool : Address) (legA legB : Utxo) : SettlementM Unit := do
  let s ← get
  ofOutcome (s.checkIdle pool)
  let registry ← ofOutcome (s.registry.deposit pool legA legB)
  set { s with registry }
  let funded ← ofOutcome (registry.require pool)
  let flows ← ofOutcome (s.flows.record pool funded.reserves .empty)
  set { s with registry, flows }

/-- Checks an execution against the present state and stages it. The rune indexer has vouched for
the confirmed tokens. -/
def execute (request : ExecuteRequest) (confirmed : List CoinId) (now : Timestamp) :
    SettlementM StagedExecution := do
  let s ← get
  let prepared ← ofOutcome (s.prepare request now)
  ofOutcome (prepared.plan.checkConfirmed confirmed)
  let slot := prepared.pendingTransaction request now
  set { s with pending := s.pending.insert slot.pool slot }
  return prepared.stagedExecution

def commitPending (pool : Address) (now : Timestamp) : SettlementM Unit := do
  let s ← get
  let slot ← ofOutcome (Outcome.ofOption .nothingPending (s.pendingOn? pool))
  ofOutcome (s.flows.check pool slot.inflow slot.outflow slot.staged.reserves)
  let account ← ofOutcome (s.accounts.preview slot.effect now)
  let registry ← ofOutcome (s.registry.commit slot.staged)
  set { s with registry }
  let flows ← ofOutcome (s.flows.record pool slot.inflow slot.outflow)
  set { s with
    registry
    flows
    accounts := account.elim s.accounts s.accounts.store
    pending := s.pending.erase pool
    resolutions := s.resolutions.record (pool, slot.txid) .finalized }

/-- Commits transaction `txid` of the pool with a key, if it is pending or was committed before. -/
def finalize (txid poolKey : String) (now : Timestamp) : SettlementM Unit := do
  let txid ← ofOutcome (Txid.parse txid)
  let s ← get
  let pool ← ofOutcome (s.registry.addressForKey poolKey)
  if s.isPending pool txid then commitPending pool now
  else if s.resolutions.get? pool txid = some .finalized then return
  else throw .nothingPending

/-- Drops transaction `txid` of the pool with a key, unless it was committed. An unknown transaction
is dropped already. -/
def rollback (txid poolKey : String) : SettlementM Unit := do
  let txid ← ofOutcome (Txid.parse txid)
  let s ← get
  let pool ← ofOutcome (s.registry.addressForKey poolKey)
  if s.isPending pool txid then
    set { s with
      pending := s.pending.erase pool
      resolutions := s.resolutions.record (pool, txid) .rolledBack }
  else if s.resolutions.get? pool txid = some .finalized then
    throw (.invalidState ("transaction " ++ txid.text ++ " already finalized"))

def claim (account : Address) (now : Timestamp) : SettlementM Amount := do
  let s ← get
  let (amount, accounts) ← ofOutcome (s.accounts.claim account now)
  set { s with accounts }
  return amount

def accrue (account : Address) (amount : Amount) : SettlementM Amount := do
  let s ← get
  let (balance, accounts) ← ofOutcome (s.accounts.accrue account amount)
  set { s with accounts }
  return balance

end Settlement

end RuneSettlement
