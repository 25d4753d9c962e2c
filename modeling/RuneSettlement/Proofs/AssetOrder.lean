import RuneSettlement.Proofs.ChildInputs
import RuneSettlement.Proofs.TextOrder

/-!
# Assets in byte order

The bytes of an asset are those of its block and of its transaction, each at its full width with the
most significant byte first. At one width the bytes of numbers are in the order of the numbers
(`Bytes.ofNatBE_lt_iff`), so assets come in the order of their bytes, and their bytes tell them
apart (`CoinId.ordered_as_bytes`). Only the bytes of the native coin could be taken for those of
another asset, the rune `0:0`, and no rune is etched in block 0.
-/

namespace RuneSettlement

namespace Bytes

lemma ofNatBE_succ (count n : Nat) :
    ofNatBE (count + 1) n = ofNatBE count (n / 256) ++ [UInt8.ofNat (n % 256)] := by
  rw [ofNatBE, ofNatLE, List.reverse_cons, ofNatBE]

lemma ofNatBE_eq_iff {count m n : Nat} (hm : m < 256 ^ count) (hn : n < 256 ^ count) :
    ofNatBE count m = ofNatBE count n ↔ m = n := by
  constructor
  · intro h
    exact ofNatLE_inj hm hn (List.reverse_inj.1 h)
  · rintro rfl
    rfl

/-- At one width the bytes of numbers, the most significant first, are in the order of the numbers:
a carry changes a byte before all those that it clears. -/
lemma ofNatBE_lt_iff {count m n : Nat} (hm : m < 256 ^ count) (hn : n < 256 ^ count) :
    ofNatBE count m < ofNatBE count n ↔ m < n := by
  induction count generalizing m n with
  | zero =>
    rw [Nat.pow_zero, Nat.lt_one_iff] at hm hn
    rw [hm, hn]
    simp
  | succ count ih =>
    have hm' : m / 256 < 256 ^ count := Nat.div_lt_of_lt_mul (Nat.pow_succ' ▸ hm)
    have hn' : n / 256 < 256 ^ count := Nat.div_lt_of_lt_mul (Nat.pow_succ' ▸ hn)
    have hlength : (ofNatBE count (m / 256)).length = (ofNatBE count (n / 256)).length := by
      rw [length_ofNatBE, length_ofNatBE]
    have hlast : [UInt8.ofNat (m % 256)] < [UInt8.ofNat (n % 256)] ↔ m % 256 < n % 256 := by
      rw [cons_lt_cons_iff (Nat.mod_lt m (by decide)) (Nat.mod_lt n (by decide))]
      simp
    rw [ofNatBE_succ, ofNatBE_succ, append_lt_append_iff hlength, ih hm' hn',
      ofNatBE_eq_iff hm' hn', hlast]
    omega

end Bytes

namespace CoinId

/-- The native coin comes first, then runes by block, and those of one block by transaction. -/
def Before : CoinId → CoinId → Prop
  | _, .native => False
  | .native, .rune _ _ => True
  | .rune block tx, .rune block' tx' => block < block' ∨ block = block' ∧ tx < tx'

lemma before_iff {a b : CoinId} : Key.before a b = true ↔ a.Before b := by
  unfold Key.before
  rw [lexBefore_iff_lt]
  cases a with
  | native =>
    cases b with
    | native => simp [Key.code, code, Before]
    | rune block tx => simp [Key.code, code, Before]
  | rune block tx =>
    cases b with
    | native => simp [Key.code, code, Before]
    | rune block' tx' =>
      simp [Key.code, code, Before, List.cons_lt_cons_iff, BitVec.lt_def, BitVec.toNat_inj]

lemma length_toBytes (a : CoinId) : a.toBytes.length = 12 := by
  rw [toBytes, List.length_append, Bytes.length_ofNatBE, Bytes.length_ofNatBE]

lemma framable_toBytes (a : CoinId) : KeyRing.Framable [a.toBytes] := by
  intro component hcomponent
  rw [List.mem_singleton.1 hcomponent, length_toBytes]
  decide

lemma position_lt (a : CoinId) : a.position.1 < 256 ^ 8 ∧ a.position.2 < 256 ^ 4 := by
  cases a with
  | native => decide
  | rune block tx => exact ⟨block.isLt, tx.isLt⟩

/-- The bytes are in the order of the positions. -/
lemma toBytes_lt_iff {a b : CoinId} :
    a.toBytes < b.toBytes ↔ a.position.1 < b.position.1 ∨
      a.position.1 = b.position.1 ∧ a.position.2 < b.position.2 := by
  obtain ⟨hblock, htx⟩ := a.position_lt
  obtain ⟨hblock', htx'⟩ := b.position_lt
  have hlength : (Bytes.ofNatBE 8 a.position.1).length = (Bytes.ofNatBE 8 b.position.1).length := by
    rw [Bytes.length_ofNatBE, Bytes.length_ofNatBE]
  rw [toBytes, toBytes, append_lt_append_iff hlength, Bytes.ofNatBE_lt_iff hblock hblock',
    Bytes.ofNatBE_eq_iff hblock hblock', Bytes.ofNatBE_lt_iff htx htx']

lemma before_iff_toBytes_lt {a b : CoinId} (hb : b.inGenesisBlock = false) :
    a.Before b ↔ a.toBytes < b.toBytes := by
  rw [toBytes_lt_iff]
  cases b with
  | native => simp [Before, position]
  | rune block tx =>
    cases a with
    | native =>
      have hblock : block.toNat ≠ 0 := of_decide_eq_false hb
      have hlater : 0 < block.toNat := Nat.pos_of_ne_zero hblock
      simp [Before, position, hlater]
    | rune block' tx' => simp [Before, position, BitVec.lt_def, BitVec.toNat_inj]

lemma toBytes_ne_of_before {a b : CoinId} (hb : b.inGenesisBlock = false)
    (h : Key.before a b = true) : a.toBytes ≠ b.toBytes := by
  intro hsame
  have hless := (before_iff_toBytes_lt hb).1 (before_iff.1 h)
  rw [hsame] at hless
  exact List.lt_irrefl _ hless

/-- Any two assets compare, so bytes in the order of the assets tell them apart. -/
lemma toBytes_inj {a b : CoinId} (ha : a.inGenesisBlock = false) (hb : b.inGenesisBlock = false) :
    a.toBytes = b.toBytes ↔ a = b := by
  constructor
  · intro hbytes
    rcases Key.before_trichotomy a b with hbefore | hsame | hafter
    · exact absurd hbytes (toBytes_ne_of_before hb hbefore)
    · exact hsame
    · exact absurd hbytes.symm (toBytes_ne_of_before ha hafter)
  · exact congrArg toBytes

/-- Assets come in the order of their bytes, twelve of each. So the bytes tell assets apart, and as
components of a derivation path those of different assets lead to different child inputs. -/
theorem ordered_as_bytes {a b : CoinId} (ha : a.inGenesisBlock = false)
    (hb : b.inGenesisBlock = false) :
    (a.toBytes.length = 12 ∧ b.toBytes.length = 12) ∧
    (Key.before a b = true ↔ a.Before b) ∧
    (a.Before b ↔ a.toBytes < b.toBytes) ∧
    (a.toBytes = b.toBytes ↔ a = b) ∧
    ∀ seed, KeyRing.childInput seed [a.toBytes] = KeyRing.childInput seed [b.toBytes] ↔ a = b := by
  refine ⟨⟨length_toBytes a, length_toBytes b⟩, before_iff, before_iff_toBytes_lt hb,
    toBytes_inj ha hb, ?_⟩
  intro seed
  rw [KeyRing.childInput_eq_iff (framable_toBytes a) (framable_toBytes b), List.cons.injEq,
    and_iff_left rfl, and_iff_right rfl, toBytes_inj ha hb]

/-- From the last transaction of a block to the next block all lower bytes are cleared. -/
theorem ordered_as_bytes_sample :
    let last : CoinId := .rune 255#64 (BitVec.allOnes 32)
    let next : CoinId := .rune 256#64 0#32
    last.inGenesisBlock = false ∧ next.inGenesisBlock = false ∧ Key.before last next = true ∧
      last.toBytes < next.toBytes ∧ (last.toBytes.length = 12 ∧ next.toBytes.length = 12) ∧
      ∀ seed, KeyRing.childInput seed [last.toBytes] ≠ KeyRing.childInput seed [next.toBytes] := by
  intro last next
  have hlast : last.inGenesisBlock = false := by decide
  have hnext : next.inGenesisBlock = false := by decide
  have hdiffers : last ≠ next := by decide
  have hless : last.Before next := .inl (by decide)
  obtain ⟨hlength, hkeys, hbytes, -, hinput⟩ := ordered_as_bytes hlast hnext
  refine ⟨hlast, hnext, hkeys.2 hless, hbytes.1 hless, hlength, ?_⟩
  intro seed hsame
  exact hdiffers ((hinput seed).1 hsame)

/-- The rune `0:0` has the bytes of the native coin, so runes of block 0 are left out. -/
example : native.toBytes = (rune 0#64 0#32).toBytes := rfl

end CoinId

end RuneSettlement
