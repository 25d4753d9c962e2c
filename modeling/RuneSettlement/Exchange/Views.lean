import RuneSettlement.Account

/-!
# What an exchange shows

Answers to queries, and what the rune indexer knows of a rune.
-/

namespace RuneSettlement

/-- What a participant needs to build a registration. -/
structure RegisterInfo where
  untweaked : String
  tweaked : String
  address : Address
  /-- The pool's output that the registration spends. -/
  utxo : Utxo
  registerFee : Sats
  nonce : Nonce
  deriving DecidableEq

/-- The reward economy and one account of it. -/
structure AccountView where
  claimCooldown : Seconds
  registerFee : Sats
  maxRewards : Amount
  remainingRewards : Amount
  account : Option Account
  deriving DecidableEq

structure RuneEntry where
  id : CoinId
  name : String
  divisibility : BitVec 8
  symbol : Option String
  deriving DecidableEq

end RuneSettlement
