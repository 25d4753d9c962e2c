import RuneSettlement.Txid
import RuneSettlement.Text.Numeral

/-!
# Outpoints

An outpoint names one output of one transaction, written `txid:vout`.
-/

namespace RuneSettlement

structure OutPoint where
  txid : Txid
  vout : BitVec 32
  deriving DecidableEq

namespace OutPoint

def text (o : OutPoint) : String := o.txid.text ++ ":" ++ o.vout.toNat.repr

/-- Reads `txid:vout`. The identifier is judged before the output number. -/
def parse (text : String) : Outcome OutPoint := do
  let (txid, vout) ← Outcome.ofOption .invalidInput (Numeral.splitColon? text)
  let txid ← Txid.parse (String.ofList txid)
  let vout ← Outcome.ofOption .invalidNumeral (Numeral.word? 32 vout)
  return ⟨txid, vout⟩

def parseAll (texts : List String) : Outcome (List OutPoint) := texts.mapM parse

end OutPoint

/-- Outpoints are ordered by the bytes of the transaction, then by output number. -/
instance : Key OutPoint where
  code o := o.txid.code ++ [o.vout.toNat]
  code_injective {a b} h := by
    have hlen : a.txid.code.length = b.txid.code.length := by
      simp [Txid.code, FixedBytes.length_toList]
    obtain ⟨h1, h2⟩ := List.append_inj h hlen
    obtain ⟨ta, va⟩ := a
    obtain ⟨tb, vb⟩ := b
    obtain rfl : ta = tb := Txid.code_injective h1
    obtain rfl : va = vb := BitVec.eq_of_toNat_eq (by simpa using h2)
    rfl

end RuneSettlement
