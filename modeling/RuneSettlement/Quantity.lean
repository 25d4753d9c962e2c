import RuneSettlement.Refusal

/-!
# Checked arithmetic

Sums and differences of quantities, refused where the exact result does not fit: `overflow` above,
`insufficientFunds` below.
-/

namespace RuneSettlement.Quantity

variable {w : Nat}

def add (a b : BitVec w) : Outcome (BitVec w) := Outcome.ofOption .overflow (Word.add? a b)

def sub (a b : BitVec w) : Outcome (BitVec w) := Outcome.ofOption .insufficientFunds (Word.sub? a b)

def sum (values : List (BitVec w)) : Outcome (BitVec w) := values.foldlM add 0#w

/-- A native amount as an amount of any asset. -/
def widen (sats : Sats) : Amount := BitVec.ofNat 128 sats.toNat

def narrow? (value : Amount) : Option Sats := Word.ofNat? 64 value.toNat

def toSats (value : Amount) : Outcome Sats := Outcome.ofOption (.beyondSats value) (narrow? value)

theorem add_eq_ok_iff {a b c : BitVec w} : add a b = .ok c ↔ c.toNat = a.toNat + b.toNat := by
  rw [add, Outcome.ofOption_eq_ok_iff, Word.add?_eq_some_iff]

theorem sub_eq_ok_iff {a b c : BitVec w} : sub a b = .ok c ↔ a.toNat = b.toNat + c.toNat := by
  rw [sub, Outcome.ofOption_eq_ok_iff, Word.sub?_eq_some_iff]

theorem add_comm (a b : BitVec w) : add a b = add b a := by
  rw [add, add, Word.add?, Word.add?, Nat.add_comm]

theorem exists_add_eq_ok {a b : BitVec w} (h : a.toNat + b.toNat ≤ Word.greatest w) :
    ∃ c, add a b = .ok c := by
  refine ⟨BitVec.ofNat w (a.toNat + b.toNat), ?_⟩
  rw [add_eq_ok_iff, Word.toNat_ofNat_of_le h]

theorem exists_sub_eq_ok {a b : BitVec w} (h : b.toNat ≤ a.toNat) : ∃ c, sub a b = .ok c := by
  refine ⟨BitVec.ofNat w (a.toNat - b.toNat), ?_⟩
  have := Word.toNat_le_greatest a
  rw [sub_eq_ok_iff, Word.toNat_ofNat_of_le (by omega)]
  omega

theorem add_eq_error_iff {a b : BitVec w} {refusal : Refusal} :
    add a b = .error refusal ↔ refusal = .overflow ∧ Word.greatest w < a.toNat + b.toNat := by
  rw [add, Outcome.ofOption_eq_error_iff, Word.add?_eq_none_iff, and_comm]
  exact and_congr_left' eq_comm

theorem eq_overflow_of_add {a b : BitVec w} {refusal : Refusal} (h : add a b = .error refusal) :
    refusal = .overflow :=
  (add_eq_error_iff.1 h).1

theorem toSats_eq_ok_iff {value : Amount} {sats : Sats} :
    toSats value = .ok sats ↔ sats.toNat = value.toNat := by
  rw [toSats, Outcome.ofOption_eq_ok_iff, narrow?, Word.ofNat?_eq_some_iff]

@[simp] theorem toNat_widen (sats : Sats) : (widen sats).toNat = sats.toNat := by
  have := sats.isLt
  rw [widen, BitVec.toNat_ofNat, Nat.mod_eq_of_lt (by omega)]

end RuneSettlement.Quantity
