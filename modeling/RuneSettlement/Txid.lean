import RuneSettlement.Crypto.Sha2
import RuneSettlement.Refusal
import RuneSettlement.SortedMap
import RuneSettlement.Text.Hex

/-!
# Transaction identifiers

A transaction identifier is 32 bytes, written as 64 lowercase hexadecimal digits and read in either
case.
-/

namespace RuneSettlement

structure Txid where
  bytes : FixedBytes 32
  deriving DecidableEq

namespace Txid

def text (txid : Txid) : String := Hex.encode txid.bytes.toList

/-- A short form for logs, the first eight bytes. -/
def shortText (txid : Txid) : String := "Txid(" ++ Hex.encode (txid.bytes.toList.take 8) ++ ")"

def parse (text : String) : Outcome Txid :=
  match Hex.decodeFixed? 32 text with
  | some bytes => .ok ⟨bytes⟩
  | none => .error (.invalidTxid text)

/-- The identifier of a transaction with a given payload, its twofold hash. -/
def ofPayload (payload : Bytes) : Txid :=
  ⟨⟨Sha2.sha256 (Sha2.sha256 payload), Sha2.length_sha256 _⟩⟩

def code (txid : Txid) : List Nat := txid.bytes.toList.map UInt8.toNat

theorem code_injective {a b : Txid} (h : a.code = b.code) : a = b := by
  obtain ⟨⟨as, ha⟩⟩ := a
  obtain ⟨⟨bs, hb⟩⟩ := b
  have : as = bs := (List.map_inj_right fun _ _ => UInt8.toNat_inj.1).1 h
  subst this
  rfl

@[simp] theorem parse_text (txid : Txid) : parse txid.text = .ok txid := by
  simp [parse, text]

end Txid

/-- Transaction identifiers are ordered by their bytes. -/
instance : Key Txid where
  code := Txid.code
  code_injective := Txid.code_injective

/-- Addresses come with the transaction identifier first, whose code has a fixed length. -/
instance : Key (String × Txid) where
  code key := key.2.code ++ Key.code key.1
  code_injective {a b} h := by
    have hlen : a.2.code.length = b.2.code.length := by
      simp [Txid.code, FixedBytes.length_toList]
    obtain ⟨h2, h1⟩ := List.append_inj h hlen
    exact Prod.ext (Key.code_injective h1) (Txid.code_injective h2)

end RuneSettlement
