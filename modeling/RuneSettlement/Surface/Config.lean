import RuneSettlement.Config
import RuneSettlement.Surface.Assets

/-!
# JSON format of the configuration

A field that is not given takes its default. A configuration is read and then validated.
-/

namespace RuneSettlement

open JsonFormat

namespace Config

def fieldNames : List String :=
  ["exchange_id", "pool_name", "rune_id", "deposit_amount", "register_fee", "min_tx_value",
    "queue_floor_step", "max_queue_depth", "claim_cooldown_secs", "max_rewards", "max_page_size",
    "indexer_timeout_ms", "resolution_log_capacity", "key_seed_hex", "network_hrp"]

def fieldValues (c : Config) : List Json :=
  [toJson c.exchangeId, toJson c.poolName, toJson c.runeId, toJson c.depositAmount,
    toJson c.registerFee, toJson c.minTxValue, toJson c.queueFloorStep, toJson c.maxQueueDepth,
    toJson c.claimCooldown, toJson c.maxRewards, toJson c.maxPageSize, toJson c.indexerTimeout,
    toJson c.resolutionLogCapacity, toJson c.keySeed, toJson c.addressPrefix]

instance : JsonFormat Config where
  toJson c := .record (fieldNames.zip c.fieldValues)
  ofJson? j := do
    let [exchangeId, poolName, runeId, depositAmount, registerFee, minTxValue, queueFloorStep,
      maxQueueDepth, claimCooldown, maxRewards, maxPageSize, indexerTimeout,
      resolutionLogCapacity, keySeed, addressPrefix] ← someFields? fieldNames j | none
    return {
      exchangeId := ← withDefault default.exchangeId exchangeId
      poolName := ← withDefault default.poolName poolName
      runeId := ← withDefault default.runeId runeId
      depositAmount := ← withDefault default.depositAmount depositAmount
      registerFee := ← withDefault default.registerFee registerFee
      minTxValue := ← withDefault default.minTxValue minTxValue
      queueFloorStep := ← withDefault default.queueFloorStep queueFloorStep
      maxQueueDepth := ← withDefault default.maxQueueDepth maxQueueDepth
      claimCooldown := ← withDefault default.claimCooldown claimCooldown
      maxRewards := ← withDefault default.maxRewards maxRewards
      maxPageSize := ← withDefault default.maxPageSize maxPageSize
      indexerTimeout := ← withDefault default.indexerTimeout indexerTimeout
      resolutionLogCapacity := ← withDefault default.resolutionLogCapacity resolutionLogCapacity
      keySeed := ← withDefault default.keySeed keySeed
      addressPrefix := ← withDefault default.addressPrefix addressPrefix }

/-- Reads and validates a configuration. -/
def parse (text : String) : Outcome Config := do
  let some config := JsonFormat.read? (α := Config) text
    | .error (.other "the configuration is malformed")
  config.validate
  return config

end Config

end RuneSettlement
