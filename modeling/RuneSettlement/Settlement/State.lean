import RuneSettlement.Config
import RuneSettlement.FlowBook
import RuneSettlement.Settlement.Pending

/-!
# The settlement state

Committed pools, accounts, one pending slot per pool, the resolution log and the book of flows, and
the checks that an execution has to pass against them.
-/

namespace RuneSettlement

structure Settlement where
  rules : Rules
  registry : Registry
  accounts : AccountBook
  pending : SortedMap Address PendingTransaction
  resolutions : ResolutionLog
  flows : FlowBook
  deriving DecidableEq

namespace Settlement

def create (rules : Rules) (accounts : AccountBook) (resolutionCapacity : Nat) : Settlement where
  rules
  registry := .empty
  accounts
  pending := .empty
  resolutions := .create resolutionCapacity
  flows := .empty

def ofConfig (c : Config) : Settlement :=
  create c.rules c.accountBook c.resolutionLogCapacity.toNat

def pendingOn? (s : Settlement) (pool : Address) : Option PendingTransaction := s.pending.get? pool

def isPending (s : Settlement) (pool : Address) (txid : Txid) : Bool :=
  (s.pendingOn? pool).any fun p => decide (p.txid = txid)

theorem isPending_iff {s : Settlement} {pool : Address} {txid : Txid} :
    s.isPending pool txid = true ↔ ∃ slot, s.pendingOn? pool = some slot ∧ slot.txid = txid := by
  simp [isPending, Option.any_eq_true]

def status? (s : Settlement) (pool : Address) (txid : Txid) : Option TxStatus :=
  if s.isPending pool txid then some .pending
  else (s.resolutions.get? pool txid).map .resolved

def minimalValue (s : Settlement) (queueLength : BitVec 32) : Sats :=
  s.rules.floor.minimal queueLength

def checkIdle (s : Settlement) (pool : Address) : Outcome Unit :=
  match s.pendingOn? pool with
  | some busy => .error (.poolBusy busy.txid.text)
  | none => .ok ()

theorem checkIdle_eq_ok_iff {s : Settlement} {pool : Address} :
    s.checkIdle pool = .ok () ↔ s.pendingOn? pool = none := by
  unfold checkIdle
  cases s.pendingOn? pool <;> simp

/-- Refuses a transaction whose outcome on the pool is in the log. -/
def checkUnresolved (s : Settlement) (pool : Address) (txid : Txid) : Outcome Unit :=
  match s.resolutions.get? pool txid with
  | some _ =>
    .error (.invalidState ("transaction " ++ txid.text ++ " already resolved on pool " ++ pool))
  | none => .ok ()

theorem checkUnresolved_eq_ok_iff {s : Settlement} {pool : Address} {txid : Txid} :
    s.checkUnresolved pool txid = .ok () ↔ s.resolutions.get? pool txid = none := by
  unfold checkUnresolved
  cases s.resolutions.get? pool txid <;> simp

/-- The effects on an account that wait for a resolution, on any pool. -/
def pendingEffects (s : Settlement) (account : Address) : List AccountEffect :=
  (s.pending.values.map (·.effect)).filter fun e => decide (e.account? = some account)

/-- The effect of a plan on its initiator's account, refused where it could not take place or would
meet another one that waits. -/
def accountEffect (s : Settlement) (plan : Plan) (now : Timestamp) : Outcome AccountEffect :=
  let account := plan.initiator
  match plan.action with
  | .register => do
    s.accounts.checkAbsent account
    if s.pendingEffects account ≠ [] then .error (.accountExists account)
    return .register account
  | .withdraw => do
    if (s.pendingEffects account).any AccountEffect.isWithdraw then
      .error (.withdrawPending account)
    let amount := plan.outflow.amountOf plan.staged.token
    s.accounts.checkWithdraw account amount now
    return .withdraw account amount
  | .swap | .addLiquidity => .ok .none

def decodePayload (text : String) : Outcome Bytes :=
  match Hex.decode text with
  | .error fault => .error (.invalidPayload fault.message)
  | .ok [] => .error (.invalidPayload "empty payload")
  | .ok payload => .ok payload

/-- Makes every check of an execution and stages nothing. -/
def prepare (s : Settlement) (request : ExecuteRequest) (now : Timestamp) : Outcome Prepared := do
  let payload ← decodePayload request.payload
  let txid ← Txid.parse request.txid
  let i ← request.set.select request.index
  s.checkIdle i.pool
  s.checkUnresolved i.pool txid
  let plan ← s.rules.plan s.registry request.set request.index request.queueLength
  let effect ← s.accountEffect plan now
  return { txid, payload, plan, effect }

end Settlement

def Refusal.runeNotFound (id : CoinId) : Refusal :=
  .indexerDisagrees ("rune " ++ id.text ++ " not found")

/-- Refuses a plan with an unknown token that is not among the confirmed ones. -/
def Plan.checkConfirmed (plan : Plan) (confirmed : List CoinId) : Outcome Unit :=
  match plan.unknownTokens.find? fun id => decide (id ∉ confirmed) with
  | some id => .error (.runeNotFound id)
  | none => .ok ()

end RuneSettlement
