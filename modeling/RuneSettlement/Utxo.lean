import RuneSettlement.OutPoint
import RuneSettlement.Reserves

/-!
# Unspent outputs

An output carries a native amount and at most one coin of a rune.
-/

namespace RuneSettlement

structure Utxo where
  outpoint : OutPoint
  sats : Sats
  rune : Option Coin
  deriving DecidableEq

namespace Utxo

/-- An output whose rune coin, if any, is not of the native coin. -/
def make (outpoint : OutPoint) (sats : Sats) (rune : Option Coin) : Outcome Utxo :=
  if rune.any (·.id.isNative) then .error .invalidRuneId else .ok ⟨outpoint, sats, rune⟩

def parse (outpoint : String) (sats : Sats) (rune : Option Coin) : Outcome Utxo := do
  make (← OutPoint.parse outpoint) sats rune

def runeId? (u : Utxo) : Option CoinId := u.rune.map (·.id)

def runeAmount (u : Utxo) : Amount := (u.rune.map (·.value)).getD 0#128

/-- What the output adds to the reserves of its owner. -/
def addTo (u : Utxo) (r : Reserves) : Outcome Reserves := do
  let native ← Quantity.add r.native u.sats
  let r := { r with native }
  match u.rune with
  | some coin => r.credit coin
  | none => return r

theorem make_eq_ok_iff {outpoint : OutPoint} {sats : Sats} {rune : Option Coin} {u : Utxo} :
    make outpoint sats rune = .ok u ↔
      (∀ coin, rune = some coin → coin.id ≠ .native) ∧ u = ⟨outpoint, sats, rune⟩ := by
  cases rune with
  | none => simp [make, eq_comm]
  | some coin =>
    obtain ⟨id, value⟩ := coin
    cases id <;> simp [make, CoinId.isNative, eq_comm]

end Utxo

end RuneSettlement
