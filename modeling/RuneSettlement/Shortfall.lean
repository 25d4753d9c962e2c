import RuneSettlement.Utxo

/-!
# Shortfalls

After a transaction has spent outputs of a pool, new outputs must carry what the pool is to hold
beyond what remains: its shortfall. The first new output takes all of the native shortfall and the
first short token; every further token takes one output more.
-/

namespace RuneSettlement

structure Shortfall where
  native : Sats
  /-- The short tokens with a positive amount each, ascending by asset. -/
  tokens : List Coin
  deriving DecidableEq

namespace Shortfall

/-- What a holding is short of beyond `remaining`, if anything. -/
def ofHolding? (remaining : Reserves) (holding : Coin) : Outcome (Option Coin) := do
  let short ← Quantity.sub holding.value (remaining.amountOf holding.id)
  return if short = 0#128 then none else some ⟨holding.id, short⟩

/-- What `post` holds beyond `remaining`, refused where `remaining` holds more of some asset. -/
def between (remaining post : Reserves) : Outcome Shortfall := do
  let native ← Outcome.ofOption .invalidLiquidity (Word.sub? post.native remaining.native)
  if remaining.tokenCoins.any fun c => decide ((post.amountOf c.id).toNat < c.value.toNat) then
    .error .invalidLiquidity
  let tokens ← post.tokenCoins.mapM (ofHolding? remaining)
  return ⟨native, tokens.filterMap id⟩

def outputCount (s : Shortfall) : Nat :=
  if s.native = 0#64 ∧ s.tokens = [] then 0 else max 1 s.tokens.length

/-- Outputs at the given outpoints: the first with `sats` and the first coin, then one coin each. -/
def fill (sats : Sats) : List OutPoint → List Coin → Outcome (List Utxo)
  | [], _ => .ok []
  | id :: ids, coins => do
    let utxo ← Utxo.make id sats coins.head?
    let utxos ← fill 0#64 ids coins.tail
    return utxo :: utxos

/-- The new outputs, refused where the outpoints are not as many as the shortfall asks for. -/
def outputs (s : Shortfall) (ids : List OutPoint) : Outcome (List Utxo) :=
  if ids.length ≠ s.outputCount then .error .invalidInput else fill s.native ids s.tokens

theorem fill_cons_eq_ok_iff {sats : Sats} {id : OutPoint} {ids : List OutPoint}
    {coins : List Coin} {utxos : List Utxo} :
    fill sats (id :: ids) coins = .ok utxos ↔
      (∀ coin, coins.head? = some coin → coin.id ≠ .native) ∧
        ∃ others, fill 0#64 ids coins.tail = .ok others ∧
          utxos = ⟨id, sats, coins.head?⟩ :: others := by
  simp only [fill, Outcome.bind_eq_ok_iff, Utxo.make_eq_ok_iff, Outcome.pure_eq_ok_iff]
  constructor
  · rintro ⟨_, ⟨htoken, rfl⟩, others, hothers, rfl⟩
    exact ⟨htoken, others, hothers, rfl⟩
  · rintro ⟨htoken, others, hothers, rfl⟩
    exact ⟨_, ⟨htoken, rfl⟩, others, hothers, rfl⟩

end Shortfall

/-- The outputs at `ids` that raise `remaining` to `post`. -/
def assignReceives (ids : List OutPoint) (remaining post : Reserves) : Outcome (List Utxo) := do
  (← Shortfall.between remaining post).outputs ids

theorem assignReceives_eq_ok_iff {ids : List OutPoint} {remaining post : Reserves}
    {utxos : List Utxo} :
    assignReceives ids remaining post = .ok utxos ↔
      ∃ s, Shortfall.between remaining post = .ok s ∧ ids.length = s.outputCount ∧
        Shortfall.fill s.native ids s.tokens = .ok utxos := by
  rw [assignReceives, Outcome.bind_eq_ok_iff]
  refine exists_congr fun s => and_congr_right fun _ => ?_
  by_cases hlength : ids.length = s.outputCount <;> simp [Shortfall.outputs, hlength]

end RuneSettlement
