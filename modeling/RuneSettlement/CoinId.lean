import RuneSettlement.Bytes
import RuneSettlement.Refusal
import RuneSettlement.SortedMap
import RuneSettlement.Text.Numeral

/-!
# Asset identifiers

An asset is the native coin or the rune etched by transaction `tx` of block `block`. The native coin
is written `0:0`; the empty text names it too. No rune is etched in block 0.
-/

namespace RuneSettlement

inductive CoinId
  | native
  | rune (block : BitVec 64) (tx : BitVec 32)
  deriving DecidableEq

namespace CoinId

/-- The asset at `block:tx`, where `0:0` is the native coin. -/
def ofPosition (block : BitVec 64) (tx : BitVec 32) : CoinId :=
  if block.toNat = 0 ∧ tx.toNat = 0 then .native else .rune block tx

def isNative : CoinId → Bool
  | .native => true
  | .rune _ _ => false

/-- Whether the identifier names a rune in block 0, where none can be. -/
def inGenesisBlock : CoinId → Bool
  | .native => false
  | .rune block _ => decide (block.toNat = 0)

def position : CoinId → Nat × Nat
  | .native => (0, 0)
  | .rune block tx => (block.toNat, tx.toNat)

def text (id : CoinId) : String := id.position.1.repr ++ ":" ++ id.position.2.repr

/-- Eight bytes of block and four of transaction, most significant first. -/
def toBytes (id : CoinId) : Bytes :=
  Bytes.ofNatBE 8 id.position.1 ++ Bytes.ofNatBE 4 id.position.2

def parse (text : String) : Outcome CoinId := do
  if text.isEmpty then return .native
  let (block, tx) ← Outcome.ofOption .invalidRuneId (Numeral.splitColon? text)
  let block ← Outcome.ofOption .invalidRuneId (Numeral.word? 64 block)
  let tx ← Outcome.ofOption .invalidRuneId (Numeral.word? 32 tx)
  if block.toNat = 0 ∧ tx.toNat ≠ 0 then .error .invalidRuneId
  return ofPosition block tx

def code : CoinId → List Nat
  | .native => []
  | .rune block tx => [block.toNat, tx.toNat]

theorem code_injective {a b : CoinId} (h : a.code = b.code) : a = b := by
  cases a <;> cases b <;> simp_all [code, BitVec.toNat_inj]

end CoinId

/-- The native coin comes first, then runes by block and by transaction. -/
instance : Key CoinId where
  code := CoinId.code
  code_injective := CoinId.code_injective

end RuneSettlement
