import Mathlib.Tactic.Lemma
import Mathlib.Tactic.SplitIfs
import Mathlib.Tactic.Tauto
import RuneSettlement.Bytes
import RuneSettlement.Key

/-!
# Texts in byte order

Maps list texts by their characters. UTF-8 keeps the order of characters: of two different
characters the smaller one has the smaller byte at the first byte where they differ, and neither
encoding begins the other. So the order of the keys is the order of the UTF-8 bytes
(`Key.before_iff_utf8_lt`).
-/

namespace RuneSettlement

lemma lexBefore_iff_lt {as bs : List Nat} : lexBefore as bs = true ↔ as < bs := by
  induction as generalizing bs with
  | nil => cases bs <;> simp [lexBefore]
  | cons a as ih =>
    cases bs with
    | nil => simp [lexBefore]
    | cons b bs => simp [lexBefore, ih, List.cons_lt_cons_iff]

/-- What stands behind lists of the same length counts only where these are the same. -/
lemma append_lt_append_iff {α : Type} [LT α] {as bs cs ds : List α} (h : as.length = bs.length) :
    as ++ cs < bs ++ ds ↔ as < bs ∨ as = bs ∧ cs < ds := by
  induction as generalizing bs with
  | nil =>
    obtain rfl := List.length_eq_zero_iff.1 h.symm
    simp
  | cons a as ih =>
    cases bs with
    | nil => cases h
    | cons b bs =>
      have hlength : as.length = bs.length := Nat.succ.inj h
      rw [List.cons_append, List.cons_append, List.cons_lt_cons_iff, List.cons_lt_cons_iff,
        ih hlength, List.cons.injEq]
      tauto

namespace Bytes

lemma cons_lt_cons_iff {as bs : Bytes} {m n : Nat} (hm : m < 256) (hn : n < 256) :
    UInt8.ofNat m :: as < UInt8.ofNat n :: bs ↔ m < n ∨ (m = n ∧ as < bs) := by
  rw [List.cons_lt_cons_iff, UInt8.lt_iff_toNat_lt, ← UInt8.toNat_inj,
    UInt8.toNat_ofNat_of_lt' hm, UInt8.toNat_ofNat_of_lt' hn]

/-- The bytes of a smaller character are smaller, whatever follows them. -/
lemma encode_append_lt {c d : Char} (h : c.toNat < d.toNat) (as bs : Bytes) :
    String.utf8EncodeChar c ++ as < String.utf8EncodeChar d ++ bs := by
  have hc := c.valid
  have hd := d.valid
  unfold UInt32.isValidChar Nat.isValidChar at hc hd
  unfold Char.toNat at h
  unfold String.utf8EncodeChar
  generalize c.val.toNat = m at *
  generalize d.val.toNat = n at *
  have hdigits : ∀ k, k / 64 / 64 = k / 4096 ∧ k / 4096 / 64 = k / 262144 := fun k =>
    ⟨Nat.div_div_eq_div_mul k 64 64, Nat.div_div_eq_div_mul k 4096 64⟩
  have hm := hdigits m
  have hn := hdigits n
  have hm8 : m / 262144 % 8 = m / 262144 := by omega
  have hn8 : n / 262144 % 8 = n / 262144 := by omega
  dsimp only
  -- The first byte tells the number of bytes, and longer encodings have the greater first byte.
  split_ifs <;> simp (disch := omega) only [List.cons_append, List.nil_append, cons_lt_cons_iff] <;>
    omega

end Bytes

/-- UTF-8 keeps the order of texts. -/
lemma flatMap_encode_lt {cs ds : List Char} (h : cs.map Char.toNat < ds.map Char.toNat) :
    cs.flatMap String.utf8EncodeChar < ds.flatMap String.utf8EncodeChar := by
  induction cs generalizing ds with
  | nil =>
    cases ds with
    | nil => simp at h
    | cons d ds =>
      have hne : String.utf8EncodeChar d ≠ [] := String.utf8EncodeChar_ne_nil
      obtain ⟨first, rest, hencode⟩ := List.exists_cons_of_ne_nil hne
      rw [List.flatMap_nil, List.flatMap_cons, hencode, List.cons_append]
      exact List.nil_lt_cons _ _
  | cons c cs ih =>
    cases ds with
    | nil => simp at h
    | cons d ds =>
      rw [List.map_cons, List.map_cons, List.cons_lt_cons_iff] at h
      rw [List.flatMap_cons, List.flatMap_cons]
      rcases h with hless | ⟨hsame, hrest⟩
      · exact Bytes.encode_append_lt hless _ _
      · rw [Char.toNat_inj.1 hsame]
        exact List.append_left_lt (ih hrest)

/-- Texts are in the order of their UTF-8 bytes. -/
theorem Key.before_iff_utf8_lt {a b : String} : Key.before a b = true ↔ utf8 a < utf8 b := by
  have hforward : ∀ {a b : String}, Key.before a b = true → utf8 a < utf8 b := by
    intro a b h
    exact flatMap_encode_lt (lexBefore_iff_lt.1 h)
  constructor
  · exact hforward
  · intro h
    rcases Key.before_trichotomy a b with hbefore | rfl | hafter
    · exact hbefore
    · exact absurd h (List.lt_irrefl _)
    · exact absurd (hforward hafter) (List.lt_asymm h)

end RuneSettlement
