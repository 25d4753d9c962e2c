import RuneSettlement.Bytes

/-!
# Hexadecimal text

`encode` writes two lowercase digits per byte; `decode` reads digits of either case. A text that
`decode` refuses has an odd number of bytes, or a first byte that is no digit, and `Fault` says
which. What `encode` writes is read back (`decode_encode`).
-/

namespace RuneSettlement.Hex

/-- What keeps a text from being a string of hexadecimal byte pairs. -/
inductive Fault
  | oddLength
  | badByte (byte : UInt8) (position : Nat)
  deriving DecidableEq

def byteDigits (b : UInt8) : List Char := [(b.toNat / 16).digitChar, (b.toNat % 16).digitChar]

def encode (bytes : Bytes) : String := String.ofList (bytes.flatMap byteDigits)

/-- The value of a digit, given by its ASCII code. -/
def digitValue? (b : UInt8) : Option Nat :=
  if 48 ≤ b.toNat ∧ b.toNat ≤ 57 then some (b.toNat - 48)
  else if 97 ≤ b.toNat ∧ b.toNat ≤ 102 then some (b.toNat - 87)
  else if 65 ≤ b.toNat ∧ b.toNat ≤ 70 then some (b.toNat - 55)
  else none

def digitAt (b : UInt8) (position : Nat) : Except Fault Nat :=
  match digitValue? b with
  | some n => .ok n
  | none => .error (.badByte b position)

/-- Reads pairs of digits, of which the first stands at `position`. -/
def decodeFrom (position : Nat) : Bytes → Except Fault Bytes
  | hi :: lo :: rest => do
    let h ← digitAt hi position
    let l ← digitAt lo (position + 1)
    let bytes ← decodeFrom (position + 2) rest
    return UInt8.ofNat (16 * h + l) :: bytes
  | [_] => .error .oddLength
  | [] => .ok []

def decode (text : String) : Except Fault Bytes :=
  let digits := utf8 text
  if digits.length % 2 = 1 then .error .oddLength else decodeFrom 0 digits

def decode? (text : String) : Option Bytes := (decode text).toOption

/-- Reads exactly `n` bytes. -/
def decodeFixed? (n : Nat) (text : String) : Option (FixedBytes n) :=
  (decode? text).bind FixedBytes.ofList?

/-- How a byte is shown between single quotes: printable Latin-1 characters as they are, but for
the quote and the backslash, the others escaped. -/
def quoteByte (b : UInt8) : String :=
  let n := b.toNat
  if n = 0 then "\\0"
  else if n = 9 then "\\t"
  else if n = 10 then "\\n"
  else if n = 13 then "\\r"
  else if n = 39 then "\\'"
  else if n = 92 then "\\\\"
  else if n < 32 ∨ (127 ≤ n ∧ n ≤ 160) ∨ n = 173 then
    "\\u\x7b" ++ String.ofList (Nat.toDigits 16 n) ++ "\x7d"
  else String.ofList [Char.ofNat n]

def Fault.message : Fault → String
  | .oddLength => "Odd number of digits"
  | .badByte byte position =>
    "Invalid character '" ++ quoteByte byte ++ "' at position " ++ position.repr

/-- The value of a digit whose code is that of the character `d`. -/
theorem digitValue?_digitChar : ∀ n < 16, digitValue? (UInt8.ofNat n.digitChar.toNat) = some n := by
  decide

theorem utf8EncodeChar_digitChar :
    ∀ n < 16, String.utf8EncodeChar n.digitChar = [UInt8.ofNat n.digitChar.toNat] := by
  decide

theorem utf8_encode (bytes : Bytes) :
    utf8 (encode bytes) = bytes.flatMap fun b =>
      [UInt8.ofNat (b.toNat / 16).digitChar.toNat, UInt8.ofNat (b.toNat % 16).digitChar.toNat] := by
  simp only [utf8, encode, String.toList_ofList, List.flatMap_assoc]
  congr 1
  funext b
  have hb := b.toNat_lt
  have h1 := utf8EncodeChar_digitChar (b.toNat / 16) (by omega)
  have h2 := utf8EncodeChar_digitChar (b.toNat % 16) (by omega)
  simp [byteDigits, h1, h2]

theorem decodeFrom_digits (bytes : Bytes) (position : Nat) :
    decodeFrom position (bytes.flatMap fun b =>
      [UInt8.ofNat (b.toNat / 16).digitChar.toNat, UInt8.ofNat (b.toNat % 16).digitChar.toNat]) =
      .ok bytes := by
  induction bytes generalizing position with
  | nil => rfl
  | cons b bytes ih =>
    have hb := b.toNat_lt
    simp only [List.flatMap_cons, List.cons_append, List.nil_append, decodeFrom, digitAt,
      digitValue?_digitChar (b.toNat / 16) (by omega),
      digitValue?_digitChar (b.toNat % 16) (by omega)]
    simp only [bind, Except.bind, ih, pure, Except.pure]
    rw [Nat.div_add_mod, UInt8.ofNat_toNat]

/-- What is written is read back. -/
theorem decode_encode (bytes : Bytes) : decode (encode bytes) = .ok bytes := by
  have : (utf8 (encode bytes)).length = 2 * bytes.length := by
    rw [utf8_encode]
    induction bytes with
    | nil => rfl
    | cons b bytes ih =>
      simp only [List.flatMap_cons, List.length_append, ih, List.length_cons, List.length_nil]
      omega
  simp only [decode, this]
  rw [if_neg (by omega), utf8_encode, decodeFrom_digits]

@[simp] theorem decode?_encode (bytes : Bytes) : decode? (encode bytes) = some bytes := by
  simp [decode?, decode_encode, Except.toOption]

@[simp] theorem decodeFixed?_encode {n : Nat} (bytes : FixedBytes n) :
    decodeFixed? n (encode bytes.toList) = some bytes := by
  simp [decodeFixed?, FixedBytes.ofList?_eq_some_iff]

end RuneSettlement.Hex
