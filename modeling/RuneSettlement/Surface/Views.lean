import RuneSettlement.Exchange.Views
import RuneSettlement.Surface.Assets

/-!
# JSON formats of keys, pools and accounts
-/

namespace RuneSettlement

open JsonFormat

instance : JsonFormat PoolKeys where
  toJson k := .record [("untweaked", toJson k.untweaked), ("tweaked", toJson k.tweaked),
    ("derivation_path", toJson k.path), ("address", toJson k.address)]
  ofJson? j := do
    let [untweaked, tweaked, path, address] ←
      fields? ["untweaked", "tweaked", "derivation_path", "address"] j | none
    return ⟨← required untweaked, ← required tweaked, ← required path, ← required address⟩

def PoolInfo.fieldNames : List String :=
  ["key", "key_derivation_path", "name", "address", "nonce", "coin_reserved", "btc_reserved",
    "utxos", "attributes"]

instance : JsonFormat PoolInfo where
  toJson p := .record (PoolInfo.fieldNames.zip [toJson p.key, toJson p.path, toJson p.name,
    toJson p.address, toJson p.nonce, toJson p.coins, toJson p.sats, toJson p.utxos,
    toJson p.attributes])
  ofJson? j := do
    let [key, path, name, address, nonce, coins, sats, utxos, attributes] ←
      fields? PoolInfo.fieldNames j | none
    return {
      key := ← required key
      path := ← required path
      name := ← required name
      address := ← required address
      nonce := ← required nonce
      coins := ← required coins
      sats := ← required sats
      utxos := ← required utxos
      attributes := ← required attributes }

def RegisterInfo.fieldNames : List String :=
  ["untweaked_key", "tweaked_key", "address", "utxo", "register_fee", "nonce"]

instance : JsonFormat RegisterInfo where
  toJson r := .record (RegisterInfo.fieldNames.zip [toJson r.untweaked, toJson r.tweaked,
    toJson r.address, toJson r.utxo, toJson r.registerFee, toJson r.nonce])
  ofJson? j := do
    let [untweaked, tweaked, address, utxo, registerFee, nonce] ←
      fields? RegisterInfo.fieldNames j | none
    return {
      untweaked := ← required untweaked
      tweaked := ← required tweaked
      address := ← required address
      utxo := ← required utxo
      registerFee := ← required registerFee
      nonce := ← required nonce }

def Account.fieldNames : List String :=
  ["id", "reward_balance", "withdrawable", "last_action_at", "registered_at"]

instance : JsonFormat Account where
  toJson a := .record (Account.fieldNames.zip [toJson a.id, toJson a.rewards,
    toJson a.withdrawable, toJson a.lastAction, toJson a.registeredAt])
  ofJson? j := do
    let [id, rewards, withdrawable, lastAction, registeredAt] ← fields? Account.fieldNames j | none
    return {
      id := ← required id
      rewards := ← required rewards
      withdrawable := ← required withdrawable
      lastAction := ← nullable lastAction
      registeredAt := ← required registeredAt }

def AccountView.fieldNames : List String :=
  ["claim_cooldown_secs", "register_fee", "max_rewards", "remaining_rewards", "account"]

instance : JsonFormat AccountView where
  toJson v := .record (AccountView.fieldNames.zip [toJson v.claimCooldown, toJson v.registerFee,
    toJson v.maxRewards, toJson v.remainingRewards, toJson v.account])
  ofJson? j := do
    let [claimCooldown, registerFee, maxRewards, remainingRewards, account] ←
      fields? AccountView.fieldNames j | none
    return {
      claimCooldown := ← required claimCooldown
      registerFee := ← required registerFee
      maxRewards := ← required maxRewards
      remainingRewards := ← required remainingRewards
      account := ← nullable account }

instance : JsonFormat RuneEntry where
  toJson e := .record [("id", toJson e.id), ("spaced_rune", toJson e.name),
    ("divisibility", toJson e.divisibility), ("symbol", toJson e.symbol)]
  ofJson? j := do
    let [id, name, divisibility, symbol] ←
      fields? ["id", "spaced_rune", "divisibility", "symbol"] j | none
    return ⟨← required id, ← required name, ← required divisibility, ← nullable symbol⟩

end RuneSettlement
