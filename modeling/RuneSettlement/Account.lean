import RuneSettlement.Pool

/-!
# Reward accounts

Rewards are accrued to an account, claimed into its withdrawable balance, and paid out by a withdraw
intention. Claims and payouts of one account keep a cooldown between them. The book caps the rewards
ever accrued.
-/

namespace RuneSettlement

structure Account where
  id : Address
  /-- Rewards accrued and not yet claimed. -/
  rewards : Amount
  /-- Rewards claimed and not yet paid out. -/
  withdrawable : Amount
  /-- The last claim or payout. -/
  lastAction : Option Timestamp
  registeredAt : Timestamp
  deriving DecidableEq

namespace Account

def create (id : Address) (registeredAt : Timestamp) : Account :=
  ⟨id, 0#128, 0#128, none, registeredAt⟩

/-- The earliest moment of the next claim or payout, the last moment there is at most. -/
def nextActionAt (a : Account) (cooldown : Seconds) : Option Timestamp :=
  a.lastAction.map fun t => Word.ofNatCapped 64 (t.toNat + cooldown.toNat)

def checkCooldown (a : Account) (cooldown : Seconds) (now : Timestamp) : Outcome Unit :=
  match a.nextActionAt cooldown with
  | some next => if now.toNat < next.toNat then .error (.coolingDown a.id next) else .ok ()
  | none => .ok ()

end Account

/-- The change of an account that comes with a transaction, in force once it is finalized. -/
inductive AccountEffect
  | none
  | register (account : Address)
  | withdraw (account : Address) (amount : Amount)
  deriving DecidableEq

namespace AccountEffect

def account? : AccountEffect → Option Address
  | .none => Option.none
  | .register account => some account
  | .withdraw account _ => some account

def isWithdraw : AccountEffect → Bool
  | .withdraw _ _ => true
  | _ => false

end AccountEffect

structure AccountBook where
  accounts : SortedMap Address Account
  cooldown : Seconds
  maxRewards : Amount
  accrued : Amount
  deriving DecidableEq

namespace AccountBook

def create (cooldown : Seconds) (maxRewards : Amount) : AccountBook :=
  ⟨.empty, cooldown, maxRewards, 0#128⟩

def get? (b : AccountBook) (id : Address) : Option Account := b.accounts.get? id

def require (b : AccountBook) (id : Address) : Outcome Account :=
  Outcome.ofOption (.accountNotFound id) (b.get? id)

def size (b : AccountBook) : Nat := b.accounts.size

def isEmpty (b : AccountBook) : Bool := b.accounts.isEmpty

def remainingRewards (b : AccountBook) : Amount :=
  BitVec.ofNat 128 (b.maxRewards.toNat - b.accrued.toNat)

def checkAbsent (b : AccountBook) (id : Address) : Outcome Unit :=
  if b.accounts.contains id then .error (.accountExists id) else .ok ()

/-- Files an account under its own identifier. -/
def store (b : AccountBook) (account : Account) : AccountBook :=
  { b with accounts := b.accounts.insert account.id account }

def openAccount (b : AccountBook) (id : Address) (now : Timestamp) : Outcome AccountBook := do
  b.checkAbsent id
  return { b with accounts := b.accounts.insert id (.create id now) }

/-- Accrues rewards to an account and gives its balance of rewards. -/
def accrue (b : AccountBook) (id : Address) (amount : Amount) : Outcome (Amount × AccountBook) := do
  let account ← b.require id
  if b.remainingRewards.toNat < amount.toNat then
    .error (.rewardsInsufficient b.remainingRewards)
  let accrued ← Quantity.add b.accrued amount
  let rewards ← Quantity.add account.rewards amount
  return (rewards, { b with accounts := b.accounts.insert id { account with rewards }, accrued })

/-- Makes all rewards of an account withdrawable and gives their amount. -/
def claim (b : AccountBook) (id : Address) (now : Timestamp) : Outcome (Amount × AccountBook) := do
  let account ← b.require id
  account.checkCooldown b.cooldown now
  if account.rewards = 0#128 then .error (.rewardsInsufficient 0#128)
  let withdrawable ← Quantity.add account.withdrawable account.rewards
  return (account.rewards,
    b.store { account with rewards := 0#128, withdrawable, lastAction := some now })

/-- A payout must drain exactly what is withdrawable. -/
def checkWithdraw (b : AccountBook) (id : Address) (amount : Amount) (now : Timestamp) :
    Outcome Unit := do
  let account ← b.require id
  account.checkCooldown b.cooldown now
  if account.withdrawable = 0#128 ∨ amount ≠ account.withdrawable then
    .error (.rewardsInsufficient account.withdrawable)

/-- The account as an effect would leave it. -/
def preview (b : AccountBook) (effect : AccountEffect) (now : Timestamp) :
    Outcome (Option Account) :=
  match effect with
  | .none => .ok none
  | .register id => do
    b.checkAbsent id
    return some (.create id now)
  | .withdraw id amount => do
    let account ← b.require id
    let withdrawable ← Outcome.ofOption (.rewardsInsufficient account.withdrawable)
      (Word.sub? account.withdrawable amount)
    return some { account with withdrawable, lastAction := some now }

theorem get?_store (b : AccountBook) (account : Account) (id : Address) :
    (b.store account).get? id = if account.id = id then some account else b.get? id := by
  by_cases h : account.id = id <;> simp [get?, store, h, SortedMap.get?_insert]

end AccountBook

end RuneSettlement
