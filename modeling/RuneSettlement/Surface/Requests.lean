import RuneSettlement.Intention
import RuneSettlement.Surface.Assets

/-!
# JSON formats of intentions and requests
-/

namespace RuneSettlement

open JsonFormat

instance : JsonFormat InputCoin where
  toJson c := .record [("from", toJson c.source), ("coin", toJson c.coin)]
  ofJson? j := do
    let [source, coin] ← fields? ["from", "coin"] j | none
    return ⟨← required source, ← required coin⟩

instance : JsonFormat OutputCoin where
  toJson c := .record [("to", toJson c.destination), ("coin", toJson c.coin)]
  ofJson? j := do
    let [destination, coin] ← fields? ["to", "coin"] j | none
    return ⟨← required destination, ← required coin⟩

def Intention.fieldNames : List String :=
  ["exchange_id", "action", "action_params", "pool_address", "nonce", "pool_utxo_spend",
    "pool_utxo_receive", "input_coins", "output_coins"]

instance : JsonFormat Intention where
  toJson i := .record (Intention.fieldNames.zip [toJson i.exchangeId, toJson i.action,
    toJson i.parameters, toJson i.pool, toJson i.nonce, toJson i.spends, toJson i.receives,
    toJson i.inputs, toJson i.outputs])
  ofJson? j := do
    let [exchangeId, action, parameters, pool, nonce, spends, receives, inputs, outputs] ←
      fields? Intention.fieldNames j | none
    return {
      exchangeId := ← required exchangeId
      action := ← required action
      parameters := ← required parameters
      pool := ← required pool
      nonce := ← required nonce
      spends := ← required spends
      receives := ← required receives
      inputs := ← required inputs
      outputs := ← required outputs }

instance : JsonFormat IntentionSet where
  toJson s :=
    .record [("initiator_address", toJson s.initiator), ("intentions", toJson s.intentions)]
  ofJson? j := do
    let [initiator, intentions] ← fields? ["initiator_address", "intentions"] j | none
    return ⟨← required initiator, ← required intentions⟩

def Action.name : Action → String
  | swap => "Swap"
  | addLiquidity => "AddLiquidity"
  | register => "Register"
  | withdraw => "Withdraw"

instance : JsonFormat Action := ofNames Action.all Action.name

def ExecuteRequest.fieldNames : List String :=
  ["psbt_hex", "txid", "intention_set", "intention_index", "zero_confirmed_tx_queue_length"]

instance : JsonFormat ExecuteRequest where
  toJson r := .record (ExecuteRequest.fieldNames.zip [toJson r.payload, toJson r.txid,
    toJson r.set, toJson r.index, toJson r.queueLength])
  ofJson? j := do
    let [payload, txid, set, index, queueLength] ← fields? ExecuteRequest.fieldNames j | none
    return {
      payload := ← required payload
      txid := ← required txid
      set := ← required set
      index := ← required index
      queueLength := ← required queueLength }

instance : JsonFormat ResolveRequest where
  toJson r := .record [("txid", toJson r.txid), ("pool_key", toJson r.poolKey)]
  ofJson? j := do
    let [txid, poolKey] ← fields? ["txid", "pool_key"] j | none
    return ⟨← required txid, ← required poolKey⟩

instance : JsonFormat FloorRequest where
  toJson r := .record [("pool_address", toJson r.pool),
    ("zero_confirmed_tx_queue_length", toJson r.queueLength)]
  ofJson? j := do
    let [pool, queueLength] ← fields? ["pool_address", "zero_confirmed_tx_queue_length"] j | none
    return ⟨← required pool, ← required queueLength⟩

instance : JsonFormat PoolRequest where
  toJson r := .record [("pool_address", toJson r.pool)]
  ofJson? j := do
    let [pool] ← fields? ["pool_address"] j | none
    return ⟨← required pool⟩

instance : JsonFormat PageRequest where
  toJson r := .record [("from", toJson r.start), ("limit", toJson r.limit)]
  ofJson? j := do
    let [start, limit] ← fields? ["from", "limit"] j | none
    return ⟨← nullable start, ← required limit⟩

end RuneSettlement
