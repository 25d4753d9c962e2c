import RuneSettlement.Word

/-!
# Decimal numerals

A numeral is an optional plus sign and one or more ASCII digits; leading zeros are fine. It denotes
a word where its value fits.
-/

namespace RuneSettlement.Numeral

def digits? (cs : List Char) : Option Nat :=
  if cs ≠ [] ∧ cs.all Char.isDigit then some (Nat.ofDigitChars 10 cs 0) else none

def natural? : List Char → Option Nat
  | '+' :: cs => digits? cs
  | cs => digits? cs

def word? (w : Nat) (cs : List Char) : Option (BitVec w) := (natural? cs).bind (Word.ofNat? w)

/-- The text before the first colon and the text after it. -/
def splitColon? (text : String) : Option (List Char × List Char) :=
  let cs := text.toList
  match cs.dropWhile (· ≠ ':') with
  | _ :: after => some (cs.takeWhile (· ≠ ':'), after)
  | [] => none

end RuneSettlement.Numeral
