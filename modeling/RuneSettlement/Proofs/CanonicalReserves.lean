import Mathlib.Algebra.BigOperators.Group.List.Basic
import Mathlib.Algebra.GroupWithZero.Nat
import Mathlib.Tactic.Lemma
import RuneSettlement.Reserves

/-!
# Canonical reserves

Reserves are canonical when no token is listed with amount zero and the native coin is not listed
among the tokens. Canonical reserves are determined by the amount of every asset
(`Reserves.ext_amountOf`), and whatever is credited to and debited from them, they stay canonical
and change by exactly the total of the coins.
-/

namespace RuneSettlement

namespace Coin

/-- What a list of coins comes to in one asset. -/
def total (coins : List Coin) (id : CoinId) : Nat :=
  (coins.map fun c => if c.id = id then c.value.toNat else 0).sum

@[simp] lemma total_nil (id : CoinId) : total [] id = 0 := rfl

@[simp] lemma total_cons (coin : Coin) (coins : List Coin) (id : CoinId) :
    total (coin :: coins) id = (if coin.id = id then coin.value.toNat else 0) + total coins id := by
  simp [total]

@[simp] lemma total_append (coins more : List Coin) (id : CoinId) :
    total (coins ++ more) id = total coins id + total more id := by
  simp [total]

lemma total_perm {coins coins' : List Coin} (h : coins.Perm coins') (id : CoinId) :
    total coins id = total coins' id :=
  (h.map _).sum_nat

end Coin

namespace Reserves

/-- No token is listed with amount zero, and none is the native coin. -/
def Canonical (r : Reserves) : Prop :=
  ∀ id amount, r.tokens.get? id = some amount → id ≠ .native ∧ amount ≠ 0#128

lemma canonical_empty : empty.Canonical := by
  intro id amount h
  simp [empty] at h

/-- Canonical reserves with the same amount of every asset are the same. -/
theorem ext_amountOf {r s : Reserves} (hr : r.Canonical) (hs : s.Canonical)
    (h : ∀ id, (r.amountOf id).toNat = (s.amountOf id).toNat) : r = s := by
  have hnative : r.native = s.native := by
    apply BitVec.eq_of_toNat_eq
    simpa using h .native
  have htokens : r.tokens = s.tokens := by
    apply SortedMap.ext_get?
    intro id
    by_cases hid : id = .native
    · have hnone : ∀ {q : Reserves}, q.Canonical → q.tokens.get? id = none := by
        intro q hq
        cases hget : q.tokens.get? id with
        | none => rfl
        | some amount => exact absurd hid (hq id amount hget).1
      rw [hnone hr, hnone hs]
    · have hid' := BitVec.eq_of_toNat_eq (h id)
      simp only [amountOf, if_neg hid] at hid'
      cases ha : r.tokens.get? id with
      | none =>
        cases hb : s.tokens.get? id with
        | none => rfl
        | some b =>
          simp only [ha, hb, Option.getD_none, Option.getD_some] at hid'
          exact absurd hid'.symm (hs id b hb).2
      | some a =>
        cases hb : s.tokens.get? id with
        | none =>
          simp only [ha, hb, Option.getD_none, Option.getD_some] at hid'
          exact absurd hid' (hr id a ha).2
        | some b =>
          simp only [ha, hb, Option.getD_some] at hid'
          rw [hid']
  cases r
  cases s
  simp_all

lemma Canonical.insert {r : Reserves} (hr : r.Canonical) {id : CoinId} {amount : Amount}
    (hid : id ≠ .native) (hamount : amount ≠ 0#128) :
    Canonical { r with tokens := r.tokens.insert id amount } := by
  intro id' amount' h
  simp only [SortedMap.get?_insert] at h
  split at h
  · next hs =>
    cases h
    exact ⟨Key.same_iff.1 hs ▸ hid, hamount⟩
  · exact hr id' amount' h

lemma Canonical.erase {r : Reserves} (hr : r.Canonical) (id : CoinId) :
    Canonical { r with tokens := r.tokens.erase id } := by
  intro id' amount' h
  simp only [SortedMap.get?_erase] at h
  split at h
  · cases h
  · exact hr id' amount' h

lemma Canonical.credit {r r' : Reserves} {coin : Coin} (hr : r.Canonical)
    (h : r.credit coin = .ok r') : r'.Canonical := by
  unfold Reserves.credit at h
  split at h
  · simp only [Outcome.bind_eq_ok_iff, Outcome.pure_eq_ok_iff] at h
    obtain ⟨_, -, _, -, rfl⟩ := h
    exact hr
  · next hid =>
    split at h
    · cases h
      exact hr
    · next hvalue =>
      simp only [Outcome.bind_eq_ok_iff, Quantity.add_eq_ok_iff, Outcome.pure_eq_ok_iff] at h
      obtain ⟨amount, hadd, rfl⟩ := h
      refine hr.insert hid ?_
      -- The sum is at least the coin, and the coin is not zero.
      rintro rfl
      have : coin.value.toNat ≠ 0 := fun h0 => hvalue (BitVec.eq_of_toNat_eq (by simpa using h0))
      rw [BitVec.toNat_ofNat] at hadd
      omega

lemma Canonical.debit {r r' : Reserves} {coin : Coin} (hr : r.Canonical)
    (h : r.debit coin = .ok r') : r'.Canonical := by
  unfold Reserves.debit at h
  split at h
  · simp only [Outcome.bind_eq_ok_iff, Outcome.pure_eq_ok_iff] at h
    obtain ⟨_, -, _, -, rfl⟩ := h
    exact hr
  · next hid =>
    simp only [Outcome.bind_eq_ok_iff, Outcome.pure_eq_ok_iff] at h
    obtain ⟨amount, -, rfl⟩ := h
    by_cases hzero : amount = 0#128
    · simpa [hzero] using hr.erase coin.id
    · simpa [hzero] using hr.insert hid hzero

lemma creditAll_cons_eq_ok_iff {r r' : Reserves} {coin : Coin} {coins : List Coin} :
    r.creditAll (coin :: coins) = .ok r' ↔
      ∃ next, r.credit coin = .ok next ∧ next.creditAll coins = .ok r' := by
  rw [creditAll, List.foldlM_cons, Outcome.bind_eq_ok_iff]
  rfl

lemma debitAll_cons_eq_ok_iff {r r' : Reserves} {coin : Coin} {coins : List Coin} :
    r.debitAll (coin :: coins) = .ok r' ↔
      ∃ next, r.debit coin = .ok next ∧ next.debitAll coins = .ok r' := by
  rw [debitAll, List.foldlM_cons, Outcome.bind_eq_ok_iff]
  rfl

lemma Canonical.creditAll {r r' : Reserves} {coins : List Coin} (hr : r.Canonical)
    (h : r.creditAll coins = .ok r') : r'.Canonical := by
  induction coins generalizing r with
  | nil =>
    cases h
    exact hr
  | cons coin coins ih =>
    obtain ⟨next, hnext, hrest⟩ := creditAll_cons_eq_ok_iff.1 h
    exact ih (hr.credit hnext) hrest

lemma Canonical.debitAll {r r' : Reserves} {coins : List Coin} (hr : r.Canonical)
    (h : r.debitAll coins = .ok r') : r'.Canonical := by
  induction coins generalizing r with
  | nil =>
    cases h
    exact hr
  | cons coin coins ih =>
    obtain ⟨next, hnext, hrest⟩ := debitAll_cons_eq_ok_iff.1 h
    exact ih (hr.debit hnext) hrest

theorem toNat_amountOf_creditAll {r r' : Reserves} {coins : List Coin}
    (h : r.creditAll coins = .ok r') (id : CoinId) :
    (r'.amountOf id).toNat = (r.amountOf id).toNat + Coin.total coins id := by
  induction coins generalizing r with
  | nil =>
    cases h
    rfl
  | cons coin coins ih =>
    obtain ⟨next, hnext, hrest⟩ := creditAll_cons_eq_ok_iff.1 h
    rw [ih hrest, toNat_amountOf_credit hnext, Coin.total_cons, Nat.add_assoc]

theorem toNat_amountOf_debitAll {r r' : Reserves} {coins : List Coin}
    (h : r.debitAll coins = .ok r') (id : CoinId) :
    (r'.amountOf id).toNat + Coin.total coins id = (r.amountOf id).toNat := by
  induction coins generalizing r with
  | nil =>
    cases h
    rfl
  | cons coin coins ih =>
    obtain ⟨next, hnext, hrest⟩ := debitAll_cons_eq_ok_iff.1 h
    have htail := ih hrest
    have hhead := toNat_amountOf_debit hnext id
    rw [Coin.total_cons]
    omega

/-- The listed tokens come to the listed amount in every asset, because no token is listed twice. -/
lemma total_tokenCoins (r : Reserves) (id : CoinId) :
    Coin.total r.tokenCoins id = ((r.tokens.get? id).getD 0#128).toNat := by
  obtain ⟨native, ⟨entries, hascending⟩⟩ := r
  simp only [tokenCoins]
  induction entries with
  | nil => rfl
  | cons e entries ih =>
    obtain ⟨hfirst, hrest⟩ := List.pairwise_cons.1 hascending
    have htail := ih hrest
    rw [List.map_cons, Coin.total_cons, htail]
    by_cases hid : e.1 = id
    · have hnone : SortedMap.get? ⟨entries, hrest⟩ id = none := by
        rw [Option.eq_none_iff_forall_not_mem]
        intro amount hmem
        have := hfirst _ (SortedMap.get?_eq_some_iff.1 hmem)
        exact Key.ne_of_before this hid
      have hsome : SortedMap.get? ⟨e :: entries, hascending⟩ id = some e.2 := by
        rw [SortedMap.get?_eq_some_iff, ← hid]
        exact List.mem_cons_self
      simp [hid, hnone, hsome]
    · have hskip : SortedMap.get? ⟨e :: entries, hascending⟩ id =
          SortedMap.get? ⟨entries, hrest⟩ id := by
        have : Key.same e.1 id = false := Bool.eq_false_iff.2 (mt Key.same_iff.1 hid)
        simp [SortedMap.get?, this]
      rw [if_neg hid, hskip, Nat.zero_add]

lemma total_coins {r : Reserves} (hr : r.Canonical) (id : CoinId) :
    Coin.total r.coins id = (r.amountOf id).toNat := by
  rw [coins, Coin.total_cons, total_tokenCoins]
  by_cases hid : id = .native
  · have hnone : r.tokens.get? id = none := by
      rw [Option.eq_none_iff_forall_not_mem]
      intro amount hmem
      exact (hr id amount hmem).1 hid
    simp [hid ▸ hnone, hid, Coin.native]
  · simp [amountOf, hid, Ne.symm hid, Coin.native]

lemma Canonical.merge {r other r' : Reserves} (hr : r.Canonical) (h : r.merge other = .ok r') :
    r'.Canonical :=
  hr.creditAll h

theorem toNat_amountOf_merge {r other r' : Reserves} (hother : other.Canonical)
    (h : r.merge other = .ok r') (id : CoinId) :
    (r'.amountOf id).toNat = (r.amountOf id).toNat + (other.amountOf id).toNat := by
  rw [toNat_amountOf_creditAll h, total_coins hother]

lemma exists_debit_eq_ok {r : Reserves} {coin : Coin}
    (h : coin.value.toNat ≤ (r.amountOf coin.id).toNat) : ∃ r', r.debit coin = .ok r' := by
  unfold debit
  split
  · next hid =>
    rw [hid, toNat_amountOf_native] at h
    have hfits := Nat.le_trans h (Word.toNat_le_greatest _)
    have hsats := Word.toNat_ofNat_of_le hfits
    obtain ⟨native, hnative⟩ := Quantity.exists_sub_eq_ok (hsats.trans_le h)
    simp only [Outcome.bind_eq_ok_iff, Outcome.ofOption_eq_ok_iff, Quantity.narrow?,
      Word.ofNat?_eq_some_iff]
    exact ⟨_, _, hsats, native, hnative, rfl⟩
  · obtain ⟨amount, hamount⟩ := Quantity.exists_sub_eq_ok h
    rw [hamount]
    exact ⟨_, rfl⟩

/-- Debits that the holdings cover together are not refused. -/
theorem exists_debitAll_eq_ok {r : Reserves} {coins : List Coin}
    (h : ∀ id, Coin.total coins id ≤ (r.amountOf id).toNat) : ∃ r', r.debitAll coins = .ok r' := by
  induction coins generalizing r with
  | nil => exact ⟨r, rfl⟩
  | cons coin coins ih =>
    have hfirst : coin.value.toNat ≤ (r.amountOf coin.id).toNat := by
      have := h coin.id
      rw [Coin.total_cons, if_pos rfl] at this
      omega
    obtain ⟨next, hnext⟩ := exists_debit_eq_ok hfirst
    have hrest : ∀ id, Coin.total coins id ≤ (next.amountOf id).toNat := by
      intro id
      have hall := h id
      have hhead := toNat_amountOf_debit hnext id
      rw [Coin.total_cons] at hall
      omega
    obtain ⟨r', hr'⟩ := ih hrest
    exact ⟨r', debitAll_cons_eq_ok_iff.2 ⟨next, hnext, hr'⟩⟩

/-- The greatest amount of an asset that reserves can hold. -/
def limit (id : CoinId) : Nat := if id = .native then Word.greatest 64 else Word.greatest 128

lemma toNat_amountOf_le_limit (r : Reserves) (id : CoinId) : (r.amountOf id).toNat ≤ limit id := by
  unfold limit
  split
  · next hid =>
    rw [hid, toNat_amountOf_native]
    exact Word.toNat_le_greatest _
  · exact Word.toNat_le_greatest _

lemma exists_credit_eq_ok {r : Reserves} {coin : Coin}
    (h : (r.amountOf coin.id).toNat + coin.value.toNat ≤ limit coin.id) :
    ∃ r', r.credit coin = .ok r' := by
  unfold credit
  split
  · next hid =>
    rw [limit, if_pos hid, hid, toNat_amountOf_native] at h
    have hsats := Word.toNat_ofNat_of_le (Nat.le_trans (Nat.le_add_left _ _) h)
    have hsum := Word.toNat_ofNat_of_le h
    simp only [Outcome.bind_eq_ok_iff, Quantity.toSats_eq_ok_iff, Quantity.add_eq_ok_iff]
    exact ⟨_, _, hsats, _, hsum.trans (by rw [hsats]), rfl⟩
  · next hid =>
    rw [limit, if_neg hid] at h
    split
    · exact ⟨r, rfl⟩
    · simp only [Outcome.bind_eq_ok_iff, Quantity.add_eq_ok_iff]
      exact ⟨_, _, Word.toNat_ofNat_of_le h, rfl⟩

/-- Credits that fit together with the holdings are not refused. -/
theorem exists_creditAll_eq_ok {r : Reserves} {coins : List Coin}
    (h : ∀ id, (r.amountOf id).toNat + Coin.total coins id ≤ limit id) :
    ∃ r', r.creditAll coins = .ok r' := by
  induction coins generalizing r with
  | nil => exact ⟨r, rfl⟩
  | cons coin coins ih =>
    have hfirst : (r.amountOf coin.id).toNat + coin.value.toNat ≤ limit coin.id := by
      have := h coin.id
      rw [Coin.total_cons, if_pos rfl] at this
      omega
    obtain ⟨next, hnext⟩ := exists_credit_eq_ok hfirst
    have hrest : ∀ id, (next.amountOf id).toNat + Coin.total coins id ≤ limit id := by
      intro id
      have hall := h id
      rw [Coin.total_cons] at hall
      rw [toNat_amountOf_credit hnext]
      omega
    obtain ⟨r', hr'⟩ := ih hrest
    exact ⟨r', creditAll_cons_eq_ok_iff.2 ⟨next, hnext, hr'⟩⟩

/-- Canonical reserves are merged into others exactly when every sum fits. -/
theorem exists_merge_eq_ok_iff {r other : Reserves} (hother : other.Canonical) :
    (∃ r', r.merge other = .ok r') ↔
      ∀ id, (r.amountOf id).toNat + (other.amountOf id).toNat ≤ limit id := by
  constructor
  · rintro ⟨r', h⟩ id
    rw [← toNat_amountOf_merge hother h]
    exact r'.toNat_amountOf_le_limit id
  · intro h
    apply exists_creditAll_eq_ok
    intro id
    rw [total_coins hother]
    exact h id

lemma eq_overflow_of_credit {r : Reserves} {coin : Coin} {refusal : Refusal}
    (hcoin : coin.id = .native → coin.value.toNat ≤ Word.greatest 64)
    (h : r.credit coin = .error refusal) : refusal = .overflow := by
  unfold credit at h
  split at h
  · next hid =>
    have hsats := Quantity.toSats_eq_ok_iff.2 (Word.toNat_ofNat_of_le (hcoin hid))
    rcases Outcome.bind_eq_error_iff.1 h with h | ⟨sats, -, h⟩
    · rw [hsats] at h
      cases h
    · rcases Outcome.bind_eq_error_iff.1 h with h | ⟨native, -, h⟩
      · exact Quantity.eq_overflow_of_add h
      · cases h
  · split at h
    · cases h
    · rcases Outcome.bind_eq_error_iff.1 h with h | ⟨amount, -, h⟩
      · exact Quantity.eq_overflow_of_add h
      · cases h

lemma eq_overflow_of_creditAll {r : Reserves} {coins : List Coin} {refusal : Refusal}
    (hcoins : ∀ coin ∈ coins, coin.id = .native → coin.value.toNat ≤ Word.greatest 64)
    (h : r.creditAll coins = .error refusal) : refusal = .overflow := by
  induction coins generalizing r with
  | nil => cases h
  | cons coin coins ih =>
    rw [creditAll, List.foldlM_cons] at h
    rcases Outcome.bind_eq_error_iff.1 h with h | ⟨next, -, h⟩
    · exact eq_overflow_of_credit (hcoins coin List.mem_cons_self) h
    · exact ih (fun c hc => hcoins c (List.mem_cons_of_mem coin hc)) h

/-- Merging canonical reserves can only overflow. -/
theorem eq_overflow_of_merge {r other : Reserves} {refusal : Refusal} (hother : other.Canonical)
    (h : r.merge other = .error refusal) : refusal = .overflow := by
  apply eq_overflow_of_creditAll _ h
  intro coin hcoin hid
  rcases List.mem_cons.1 hcoin with rfl | hcoin
  · rw [Coin.native, Quantity.toNat_widen]
    exact Word.toNat_le_greatest _
  · obtain ⟨e, he, rfl⟩ := List.mem_map.1 hcoin
    exact absurd hid (hother e.1 e.2 (SortedMap.get?_eq_some_iff.2 he)).1

end Reserves

end RuneSettlement
