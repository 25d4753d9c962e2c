import RuneSettlement.Account
import RuneSettlement.Plan

/-!
# Configuration of an exchange
-/

namespace RuneSettlement

structure Config where
  /-- What every intention must name. -/
  exchangeId : String
  poolName : String
  /-- The token of the primary pool, which is the reward token. -/
  runeId : CoinId
  /-- The first deposit of the primary pool. -/
  depositAmount : Amount
  registerFee : Sats
  minTxValue : Sats
  queueFloorStep : Sats
  maxQueueDepth : BitVec 32
  claimCooldown : Seconds
  maxRewards : Amount
  maxPageSize : BitVec 32
  indexerTimeout : Millis
  resolutionLogCapacity : BitVec 64
  /-- 32 bytes in hexadecimal. -/
  keySeed : String
  /-- What every derived address starts with. -/
  addressPrefix : String
  deriving DecidableEq

namespace Config

def default : Config where
  exchangeId := "RUNEPOOL"
  poolName := "RUNEPOOL•COOKIE"
  runeId := .rune 840000#64 1#32
  depositAmount := 21000000#128
  registerFee := 10000#64
  minTxValue := 10000#64
  queueFloorStep := 1000#64
  maxQueueDepth := 25#32
  claimCooldown := 3600#64
  maxRewards := 21000000#128
  maxPageSize := 100#32
  indexerTimeout := 5000#64
  resolutionLogCapacity := 100000#64
  keySeed := String.ofList (List.replicate 64 '0')
  addressPrefix := "tb1p"

instance : Inhabited Config := ⟨default⟩

def seed (c : Config) : Outcome (FixedBytes 32) :=
  Outcome.ofOption .keyFailure (Hex.decodeFixed? 32 c.keySeed)

def validate (c : Config) : Outcome Unit := do
  if c.exchangeId.isEmpty ∨ c.depositAmount = 0#128 ∨ c.maxPageSize = 0#32 ∨
      c.resolutionLogCapacity = 0#64 then
    .error .invalidInput
  if c.runeId.isNative then .error .invalidRuneId
  let _ ← c.seed

def feeFloor (c : Config) : FeeFloor := ⟨c.minTxValue, c.queueFloorStep, c.maxQueueDepth⟩

def rules (c : Config) : Rules := ⟨c.exchangeId, c.runeId, c.registerFee, c.feeFloor⟩

def accountBook (c : Config) : AccountBook := .create c.claimCooldown c.maxRewards

end Config

end RuneSettlement
