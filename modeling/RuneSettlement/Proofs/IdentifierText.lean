import Mathlib.Tactic.Lemma
import RuneSettlement.CoinId
import RuneSettlement.OutPoint

/-!
# Identifiers are read back as written

What is written for an outpoint is read as that outpoint (`OutPoint.parse_text`), and likewise for
every asset that is not a rune of block 0 (`CoinId.parse_text`). No text is read as such a rune
(`CoinId.inGenesisBlock_of_parse`).
-/

namespace RuneSettlement

namespace Numeral

lemma natural?_of_isDigit {c : Char} (hc : c.isDigit = true) (cs : List Char) :
    natural? (c :: cs) = digits? (c :: cs) := by
  rw [natural?]
  rintro _ heq
  obtain ⟨rfl, -⟩ := List.cons.inj heq
  simp at hc

lemma natural?_toDigits (n : Nat) : natural? (Nat.toDigits 10 n) = some n := by
  have hdigit : ∀ c ∈ Nat.toDigits 10 n, c.isDigit = true := fun _ hc =>
    Nat.isDigit_of_mem_toDigits (by decide) (by decide) hc
  have hdigits : digits? (Nat.toDigits 10 n) = some n := by
    rw [digits?, if_pos ⟨Nat.toDigits_ne_nil, List.all_eq_true.2 hdigit⟩,
      Nat.ofDigitChars_ten_toDigits]
  cases hcs : Nat.toDigits 10 n with
  | nil => exact absurd hcs Nat.toDigits_ne_nil
  | cons c cs =>
    rw [hcs] at hdigit hdigits
    rw [natural?_of_isDigit (hdigit c List.mem_cons_self), hdigits]

@[simp] theorem word?_toDigits {w : Nat} (x : BitVec w) :
    word? w (Nat.toDigits 10 x.toNat) = some x := by
  rw [word?, natural?_toDigits, Option.bind_some, Word.ofNat?_eq_some_iff]

theorem splitColon?_append {before : String} (h : ':' ∉ before.toList) (after : String) :
    splitColon? (before ++ ":" ++ after) = some (before.toList, after.toList) := by
  have hbefore : ∀ c ∈ before.toList, decide (c ≠ ':') = true := by
    intro c hc
    rw [decide_eq_true_eq]
    rintro rfl
    exact h hc
  have htext : (before ++ ":" ++ after).toList = before.toList ++ ':' :: after.toList := by simp
  rw [splitColon?, htext, List.dropWhile_append_of_pos hbefore,
    List.takeWhile_append_of_pos hbefore]
  simp

end Numeral

namespace Txid

lemma colon_notMem_text (txid : Txid) : ':' ∉ txid.text.toList := by
  simp only [text, Hex.encode, String.toList_ofList, List.mem_flatMap, Hex.byteDigits,
    List.mem_cons, List.not_mem_nil, or_false, not_exists, not_and, not_or]
  exact fun _ _ => ⟨(Nat.digitChar_ne ':' rfl).symm, (Nat.digitChar_ne ':' rfl).symm⟩

end Txid

namespace OutPoint

@[simp] theorem parse_text (o : OutPoint) : parse o.text = .ok o := by
  rw [parse, text, Numeral.splitColon?_append o.txid.colon_notMem_text]
  simp [Outcome.ofOption, bind, Except.bind, pure, Except.pure]

end OutPoint

namespace CoinId

lemma colon_notMem_repr (n : Nat) : ':' ∉ n.repr.toList := by
  rw [Nat.toList_repr]
  intro h
  simpa using Nat.isDigit_of_mem_toDigits (by decide) (by decide) h

lemma parse_position {block : BitVec 64} {tx : BitVec 32} (h : ¬(block.toNat = 0 ∧ tx.toNat ≠ 0)) :
    parse (block.toNat.repr ++ ":" ++ tx.toNat.repr) = .ok (ofPosition block tx) := by
  have hne : (block.toNat.repr ++ ":" ++ tx.toNat.repr).isEmpty = false := by
    simp
  rw [parse, Numeral.splitColon?_append (colon_notMem_repr _)]
  simp [hne, h, Outcome.ofOption, bind, Except.bind, pure, Except.pure]

/-- An asset that may exist is read as it is written. -/
theorem parse_text {id : CoinId} (h : id.inGenesisBlock = false) : parse id.text = .ok id := by
  cases id with
  | native => exact @parse_position 0#64 0#32 (by simp)
  | rune block tx =>
    simp only [inGenesisBlock, decide_eq_false_iff_not] at h
    rw [text, position, parse_position fun hb => h hb.1, ofPosition, if_neg fun hb => h hb.1]

lemma inGenesisBlock_ofPosition {block : BitVec 64} {tx : BitVec 32}
    (h : ¬(block.toNat = 0 ∧ tx.toNat ≠ 0)) : (ofPosition block tx).inGenesisBlock = false := by
  rw [ofPosition]
  split
  · rfl
  · next hposition =>
    rw [inGenesisBlock, decide_eq_false_iff_not]
    exact fun hblock => h ⟨hblock, fun htx => hposition ⟨hblock, htx⟩⟩

/-- No text names a rune of block 0. -/
theorem inGenesisBlock_of_parse {text : String} {id : CoinId} (h : parse text = .ok id) :
    id.inGenesisBlock = false := by
  unfold parse at h
  split at h
  · obtain rfl : CoinId.native = id := Outcome.pure_eq_ok_iff.1 h
    rfl
  · simp only [Outcome.bind_eq_ok_iff] at h
    obtain ⟨-, -, block, -, tx, -, hchecked⟩ := h
    rw [Outcome.unless_eq_ok_iff, Outcome.pure_eq_ok_iff] at hchecked
    obtain ⟨hposition, rfl⟩ := hchecked
    exact inGenesisBlock_ofPosition hposition

end CoinId

end RuneSettlement
