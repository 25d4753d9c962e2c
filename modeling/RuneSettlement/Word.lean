/-!
# Quantities of fixed width

Every quantity is a word of 32, 64 or 128 bits. Arithmetic on them is exact or refused: `add?`,
`sub?` and `ofNat?` answer only where the exact result is a natural number that fits the width.
-/

namespace RuneSettlement

/-- An amount of the native coin. -/
abbrev Sats := BitVec 64

/-- An amount of any asset. -/
abbrev Amount := BitVec 128

/-- The number of transactions a pool has committed. -/
abbrev Nonce := BitVec 64

/-- A moment, in seconds since the epoch. -/
abbrev Timestamp := BitVec 64

abbrev Seconds := BitVec 64

abbrev Millis := BitVec 64

namespace Word

/-- The greatest number a word of `w` bits holds. -/
def greatest (w : Nat) : Nat := (BitVec.allOnes w).toNat

/-- The number `n` as a word, unless it needs more than `w` bits. -/
def ofNat? (w n : Nat) : Option (BitVec w) :=
  if n ≤ greatest w then some (BitVec.ofNat w n) else none

/-- The number `n` as a word; what exceeds the greatest word becomes that word. -/
def ofNatCapped (w n : Nat) : BitVec w := BitVec.ofNat w (min n (greatest w))

def add? {w : Nat} (a b : BitVec w) : Option (BitVec w) := ofNat? w (a.toNat + b.toNat)

def sub? {w : Nat} (a b : BitVec w) : Option (BitVec w) :=
  if b.toNat ≤ a.toNat then some (BitVec.ofNat w (a.toNat - b.toNat)) else none

theorem toNat_le_greatest {w : Nat} (x : BitVec w) : x.toNat ≤ greatest w := by
  have := x.isLt
  rw [greatest, BitVec.toNat_allOnes]
  omega

theorem toNat_ofNat_of_le {w n : Nat} (h : n ≤ greatest w) : (BitVec.ofNat w n).toNat = n := by
  have := Nat.two_pow_pos w
  rw [greatest, BitVec.toNat_allOnes] at h
  rw [BitVec.toNat_ofNat, Nat.mod_eq_of_lt (by omega)]

theorem ofNat?_eq_some_iff {w n : Nat} {x : BitVec w} : ofNat? w n = some x ↔ x.toNat = n := by
  unfold ofNat?
  split
  · next h => rw [Option.some.injEq, ← BitVec.toNat_inj, toNat_ofNat_of_le h, eq_comm]
  · next h =>
    have := toNat_le_greatest x
    simp only [reduceCtorEq, false_iff]
    omega

theorem ofNat?_eq_none_iff {w n : Nat} : ofNat? w n = none ↔ greatest w < n := by
  unfold ofNat?
  split <;> simp <;> omega

theorem toNat_ofNatCapped (w n : Nat) : (ofNatCapped w n).toNat = min n (greatest w) :=
  toNat_ofNat_of_le (Nat.min_le_right n _)

theorem add?_eq_some_iff {w : Nat} {a b c : BitVec w} :
    add? a b = some c ↔ c.toNat = a.toNat + b.toNat := ofNat?_eq_some_iff

theorem add?_eq_none_iff {w : Nat} {a b : BitVec w} :
    add? a b = none ↔ greatest w < a.toNat + b.toNat := ofNat?_eq_none_iff

theorem sub?_eq_some_iff {w : Nat} {a b c : BitVec w} :
    sub? a b = some c ↔ a.toNat = b.toNat + c.toNat := by
  have ha := toNat_le_greatest a
  unfold sub?
  split
  · next h =>
    rw [Option.some.injEq, ← BitVec.toNat_inj, toNat_ofNat_of_le (by omega)]
    omega
  · next h =>
    simp only [reduceCtorEq, false_iff]
    omega

end Word

end RuneSettlement
