/-!
# Byte strings

Byte strings of any length, byte strings of a fixed length, and the UTF-8 bytes of a text.
-/

namespace RuneSettlement

abbrev Bytes := List UInt8

structure FixedBytes (n : Nat) where
  toList : Bytes
  length_toList : toList.length = n
  deriving DecidableEq

namespace FixedBytes

def ofList? {n : Nat} (bytes : Bytes) : Option (FixedBytes n) :=
  if h : bytes.length = n then some ⟨bytes, h⟩ else none

/-- The first `n` bytes, padded with zeros where there are fewer. -/
def take (n : Nat) (bytes : Bytes) : FixedBytes n :=
  ⟨(bytes ++ List.replicate n 0).take n, by simp⟩

theorem ofList?_eq_some_iff {n : Nat} {bytes : Bytes} {b : FixedBytes n} :
    ofList? bytes = some b ↔ b.toList = bytes := by
  obtain ⟨l, hl⟩ := b
  unfold ofList?
  split
  · simp [eq_comm]
  · next h =>
    simp only [reduceCtorEq, false_iff]
    rintro rfl
    exact h hl

end FixedBytes

/-- The UTF-8 bytes of a text. -/
def utf8 (text : String) : Bytes := text.toList.flatMap String.utf8EncodeChar

namespace Bytes

/-- The number whose digits in base 256 are the bytes, the least significant first. -/
def toNatLE (bytes : Bytes) : Nat := bytes.foldr (fun b n => b.toNat + 256 * n) 0

/-- The lowest `count` digits of `n` in base 256, the least significant first. -/
def ofNatLE : (count : Nat) → (n : Nat) → Bytes
  | 0, _ => []
  | count + 1, n => UInt8.ofNat (n % 256) :: ofNatLE count (n / 256)

/-- The lowest `count` digits of `n` in base 256, the most significant first. -/
def ofNatBE (count n : Nat) : Bytes := (ofNatLE count n).reverse

@[simp] theorem length_ofNatLE (count n : Nat) : (ofNatLE count n).length = count := by
  induction count generalizing n with
  | zero => rfl
  | succ count ih => simp [ofNatLE, ih]

@[simp] theorem length_ofNatBE (count n : Nat) : (ofNatBE count n).length = count := by
  simp [ofNatBE]

end Bytes

end RuneSettlement
