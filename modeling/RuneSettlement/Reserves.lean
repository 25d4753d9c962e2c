import RuneSettlement.CoinId
import RuneSettlement.Quantity

/-!
# Coins and reserves

A coin is an amount of one asset. Reserves hold an amount of the native coin and one amount per
token, and a token whose amount falls to zero is no longer listed. `credit` and `debit` change the
amount of one asset by exactly the coin's value or refuse.
-/

namespace RuneSettlement

structure Coin where
  id : CoinId
  value : Amount
  deriving DecidableEq

def Coin.native (sats : Sats) : Coin := ⟨.native, Quantity.widen sats⟩

structure Reserves where
  native : Sats
  tokens : SortedMap CoinId Amount
  deriving DecidableEq

namespace Reserves

def empty : Reserves := ⟨0#64, .empty⟩

instance : Inhabited Reserves := ⟨empty⟩

def isEmpty (r : Reserves) : Bool := decide (r.native = 0#64) && r.tokens.isEmpty

def amountOf (r : Reserves) (id : CoinId) : Amount :=
  if id = .native then Quantity.widen r.native else (r.tokens.get? id).getD 0#128

/-- The token holdings, ascending by asset. -/
def tokenCoins (r : Reserves) : List Coin := r.tokens.entries.map fun e => ⟨e.1, e.2⟩

/-- All holdings, the native coin first. -/
def coins (r : Reserves) : List Coin := Coin.native r.native :: r.tokenCoins

/-- Every asset held, the native coin first. -/
def assets (r : Reserves) : List CoinId := .native :: r.tokens.keys

def credit (r : Reserves) (coin : Coin) : Outcome Reserves :=
  if coin.id = .native then do
    let sats ← Quantity.toSats coin.value
    let native ← Quantity.add r.native sats
    return { r with native }
  else if coin.value = 0#128 then .ok r
  else do
    let amount ← Quantity.add (r.amountOf coin.id) coin.value
    return { r with tokens := r.tokens.insert coin.id amount }

def debit (r : Reserves) (coin : Coin) : Outcome Reserves :=
  if coin.id = .native then do
    let sats ← Outcome.ofOption .insufficientFunds (Quantity.narrow? coin.value)
    let native ← Quantity.sub r.native sats
    return { r with native }
  else do
    let amount ← Quantity.sub (r.amountOf coin.id) coin.value
    let tokens :=
      if amount = 0#128 then r.tokens.erase coin.id else r.tokens.insert coin.id amount
    return { r with tokens }

def creditAll (r : Reserves) (coins : List Coin) : Outcome Reserves := coins.foldlM credit r

def debitAll (r : Reserves) (coins : List Coin) : Outcome Reserves := coins.foldlM debit r

def merge (r other : Reserves) : Outcome Reserves := r.creditAll other.coins

/-- The holdings after crediting coins one by one, up to the first that is refused. -/
def creditWhileAccepted (r : Reserves) : List Coin → Reserves
  | [] => r
  | coin :: coins =>
    match r.credit coin with
    | .ok next => next.creditWhileAccepted coins
    | .error _ => r

@[simp] theorem amountOf_empty (id : CoinId) : empty.amountOf id = 0#128 := by
  simp only [amountOf]
  split <;> rfl

@[simp] theorem toNat_amountOf_native (r : Reserves) :
    (r.amountOf .native).toNat = r.native.toNat := by
  simp [amountOf]

/-- A credit adds the coin's value to the amount of its asset and changes no other amount. -/
theorem toNat_amountOf_credit {r r' : Reserves} {coin : Coin} (h : r.credit coin = .ok r')
    (id : CoinId) :
    (r'.amountOf id).toNat =
      (r.amountOf id).toNat + if coin.id = id then coin.value.toNat else 0 := by
  unfold credit at h
  split at h
  · next hn =>
    simp only [Outcome.bind_eq_ok_iff, Quantity.toSats_eq_ok_iff, Quantity.add_eq_ok_iff,
      Outcome.pure_eq_ok_iff] at h
    obtain ⟨sats, hs, native, ha, rfl⟩ := h
    by_cases hid : id = .native
    · subst hid
      simp [amountOf, hn, ha, hs]
    · simp [amountOf, hn, hid, Ne.symm hid]
  · next hn =>
    split at h
    · next hz =>
      cases h
      simp [hz]
    · simp only [Outcome.bind_eq_ok_iff, Quantity.add_eq_ok_iff, Outcome.pure_eq_ok_iff] at h
      obtain ⟨amount, ha, rfl⟩ := h
      by_cases hid : coin.id = id
      · subst hid
        simp [amountOf, hn, SortedMap.get?_insert] at ha ⊢
        exact ha
      · simp [amountOf, hid, SortedMap.get?_insert]

theorem toNat_amountOf_debit {r r' : Reserves} {coin : Coin} (h : r.debit coin = .ok r')
    (id : CoinId) :
    (r'.amountOf id).toNat + (if coin.id = id then coin.value.toNat else 0) =
      (r.amountOf id).toNat := by
  unfold debit at h
  split at h
  · next hn =>
    simp only [Outcome.bind_eq_ok_iff, Outcome.ofOption_eq_ok_iff, Quantity.narrow?,
      Word.ofNat?_eq_some_iff, Quantity.sub_eq_ok_iff, Outcome.pure_eq_ok_iff] at h
    obtain ⟨sats, hs, native, ha, rfl⟩ := h
    by_cases hid : id = .native
    · subst hid
      simp only [amountOf, hn, if_true, Quantity.toNat_widen]
      omega
    · simp [amountOf, hn, hid, Ne.symm hid]
  · next hn =>
    simp only [Outcome.bind_eq_ok_iff, Quantity.sub_eq_ok_iff, Outcome.pure_eq_ok_iff] at h
    obtain ⟨amount, ha, rfl⟩ := h
    by_cases hid : coin.id = id
    · subst hid
      by_cases hz : amount = 0#128
      · simp [amountOf, hn, hz, SortedMap.get?_erase] at ha ⊢
        omega
      · simp [amountOf, hn, hz, SortedMap.get?_insert] at ha ⊢
        omega
    · by_cases hz : amount = 0#128
      · simp [amountOf, hid, hz, SortedMap.get?_erase]
      · simp [amountOf, hid, hz, SortedMap.get?_insert]

end Reserves

end RuneSettlement
