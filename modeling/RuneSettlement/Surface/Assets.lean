import RuneSettlement.Json.Format
import RuneSettlement.UtxoSet

/-!
# JSON formats of identifiers, coins and outputs
-/

namespace RuneSettlement

open JsonFormat

instance : JsonFormat Txid := ofText Txid.text fun text => (Txid.parse text).toOption

instance : JsonFormat OutPoint := ofText OutPoint.text fun text => (OutPoint.parse text).toOption

instance : JsonFormat CoinId := ofText CoinId.text fun text => (CoinId.parse text).toOption

instance : JsonFormat Coin where
  toJson c := .record [("id", toJson c.id), ("value", toJson c.value)]
  ofJson? j := do
    let [id, value] ← fields? ["id", "value"] j | none
    return ⟨← required id, ← required value⟩

/-- One token of reserves from a field of an object. -/
def Reserves.tokenOf? (field : Option String × Json) : Option (CoinId × Amount) := do
  let id ← (CoinId.parse (← field.1)).toOption
  return (id, ← ofJson? field.2)

instance : JsonFormat (SortedMap CoinId Amount) where
  toJson m := .record (m.entries.map fun e => (e.1.text, toJson e.2))
  ofJson?
    | .object fields => (fields.mapM Reserves.tokenOf?).map SortedMap.ofList
    | _ => none

instance : JsonFormat Reserves where
  toJson r := .record [("native", toJson r.native), ("tokens", toJson r.tokens)]
  ofJson? j := do
    let [native, tokens] ← fields? ["native", "tokens"] j | none
    return ⟨← required native, ← required tokens⟩

instance : JsonFormat Utxo where
  toJson u := .record [("txid", toJson u.outpoint.txid), ("vout", toJson u.outpoint.vout),
    ("sats", toJson u.sats), ("maybe_rune", toJson u.rune)]
  ofJson? j := do
    let [txid, vout, sats, rune] ← fields? ["txid", "vout", "sats", "maybe_rune"] j | none
    return ⟨⟨← required txid, ← required vout⟩, ← required sats, ← nullable rune⟩

end RuneSettlement
