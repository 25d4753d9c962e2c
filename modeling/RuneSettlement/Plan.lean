import RuneSettlement.FeeFloor
import RuneSettlement.Intention
import RuneSettlement.Registry
import RuneSettlement.Shortfall

/-!
# Plans

A plan is what an intention comes to against the committed pools: the pool after the transaction,
what flows in and out, and the tokens the pool has not held before. `Rules.plan` makes one or
refuses with the first fault; it changes nothing.
-/

namespace RuneSettlement

structure Plan where
  action : Action
  initiator : Address
  /-- The pool after the transaction, with the next nonce. -/
  staged : Pool
  inflow : Reserves
  outflow : Reserves
  /-- The tokens that flow in though the pool neither trades nor holds them. -/
  unknownTokens : List CoinId
  /-- The native value that the congestion floor is held against. -/
  nativeValue : Sats
  deriving DecidableEq

/-- What an exchange asks of every intention. -/
structure Rules where
  exchangeId : String
  rewardToken : CoinId
  registerFee : Sats
  floor : FeeFloor
  deriving DecidableEq

namespace Intention

def inputCoins (i : Intention) : List Coin := i.inputs.map (·.coin)

def outputCoins (i : Intention) : List Coin := i.outputs.map (·.coin)

/-- Refuses a coin of an impossible rune, and a coin of no value. -/
def checkCoin (coin : Coin) : Outcome Unit :=
  if coin.id.inGenesisBlock then .error .invalidRuneId
  else if coin.value = 0#128 then .error .invalidInput
  else .ok ()

/-- Whether the coins have the shape of the action. Registering pays the fee and nothing else;
withdrawing pays the initiator one coin of the reward token; both settle on a pool of that token. -/
def hasShape (i : Intention) (rules : Rules) (initiator : Address) (token : CoinId) :
    Action → Bool
  | .swap => !i.inputs.isEmpty && !i.outputs.isEmpty
  | .addLiquidity => !i.inputs.isEmpty && i.outputs.isEmpty
  | .register =>
    decide (token = rules.rewardToken ∧ i.outputs = [] ∧
      i.inputs = [⟨initiator, Coin.native rules.registerFee⟩])
  | .withdraw =>
    decide (token = rules.rewardToken ∧ i.inputs = []) &&
      match i.outputs with
      | [payout] =>
        decide (payout.destination = initiator ∧ payout.coin.id = rules.rewardToken)
      | _ => false

end Intention

namespace Pool

/-- The reserves after the flows. An outflow that they cannot cover is invalid liquidity. -/
def afterFlows (p : Pool) (inflow outflow : Reserves) : Outcome Reserves := do
  let gross ← p.reserves.merge inflow
  match gross.debitAll outflow.coins with
  | .error .insufficientFunds => .error .invalidLiquidity
  | result => result

/-- The pool after spending and creating the named outputs so that it holds `post`. -/
def stage (p : Pool) (spends receives : List String) (post : Reserves) : Outcome Pool := do
  let spends ← OutPoint.parseAll spends
  let receives ← OutPoint.parseAll receives
  let (_, rest) ← p.utxos.spend spends
  let remaining ← rest.reserves
  let outputs ← assignReceives receives remaining post
  p.transition spends outputs post

end Pool

namespace Rules

/-- The action of an intention and the pool that it is for, if the intention names this exchange,
has sound coins, knows the nonce of the pool and has the shape of its action. -/
def judge (rules : Rules) (registry : Registry) (initiator : Address) (i : Intention) :
    Outcome (Action × Pool) := do
  if i.exchangeId ≠ rules.exchangeId then .error .invalidInput
  let action ← Action.parse i.action
  (i.inputCoins ++ i.outputCoins).forM Intention.checkCoin
  let pool ← registry.require i.pool
  if i.nonce ≠ pool.nonce then .error (.staleNonce pool.nonce)
  if pool.utxos.isEmpty ∧ (i.outputs ≠ [] ∨ i.spends ≠ []) then .error .emptyPool
  if !i.hasShape rules initiator pool.token action then .error .invalidInput
  return (action, pool)

def plan (rules : Rules) (registry : Registry) (set : IntentionSet)
    (index queueLength : BitVec 32) : Outcome Plan := do
  let i ← set.select index
  let (action, pool) ← rules.judge registry set.initiator i
  let inflow ← Reserves.empty.creditAll i.inputCoins
  let outflow ← Reserves.empty.creditAll i.outputCoins
  let post ← pool.afterFlows inflow outflow
  let staged ← pool.stage i.spends i.receives post
  let nativeValue :=
    if inflow.native.toNat < outflow.native.toNat then outflow.native else inflow.native
  if nativeValue ≠ 0#64 then rules.floor.check nativeValue queueLength
  return {
    action
    initiator := set.initiator
    staged
    inflow
    outflow
    unknownTokens := inflow.tokens.keys.filter fun id =>
      decide (id ≠ pool.token ∧ pool.reserves.amountOf id = 0#128)
    nativeValue }

end Rules

end RuneSettlement
