import RuneSettlement.Proofs.Balance
import RuneSettlement.Proofs.Refusals

/-!
# The projection is the exact sum

The projection of a set adds up what its outputs hold one by one, in two widths, and is refused as
soon as a sum does not fit. As nothing is ever taken away in between, that happens just when the
exact sum of some asset does not fit (`UtxoSet.reserves_eq_error_iff`). So it does not matter in
which order the outputs stand, what is part of a set that projects projects too, and what is spent
and what is left of a set come to the whole (`UtxoSet.projects_exactly`).
-/

namespace RuneSettlement

/-- What outputs come to, added up in their order. -/
def Utxo.sumUp (utxos : List Utxo) : Outcome Reserves := utxos.foldlM (fun r u => u.addTo r) .empty

/-- What an output holds, wherever it stands. -/
def Utxo.content (u : Utxo) : Sats × Option Coin := (u.sats, u.rune)

namespace Utxo

variable {utxos utxos' : List Utxo} {r : Reserves} {refusal : Refusal}

lemma sumUp_eq_creditAll (utxos : List Utxo) :
    sumUp utxos = Reserves.empty.creditAll (utxos.flatMap coins) :=
  UtxoSet.foldlM_addTo utxos .empty

lemma exists_sumUp_iff :
    (∃ r, sumUp utxos = .ok r) ↔ ∀ id, Coin.total (utxos.flatMap coins) id ≤ Reserves.limit id := by
  rw [sumUp_eq_creditAll]
  exact Reserves.exists_creditAll_empty_iff

/-- The sum is the one canonical holding of the exact total of each asset. -/
theorem sumUp_eq_ok_iff :
    sumUp utxos = .ok r ↔
      r.Canonical ∧ ∀ id, (r.amountOf id).toNat = Coin.total (utxos.flatMap coins) id := by
  constructor
  · intro h
    rw [sumUp_eq_creditAll] at h
    exact ⟨Reserves.Canonical.of_creditAll h, Reserves.toNat_amountOf_of_creditAll h⟩
  · rintro ⟨hcanonical, hamounts⟩
    obtain ⟨sum, hsum⟩ : ∃ sum, sumUp utxos = .ok sum := by
      rw [exists_sumUp_iff]
      intro id
      rw [← hamounts]
      exact r.toNat_amountOf_le_limit id
    have hcredit := hsum
    rw [sumUp_eq_creditAll] at hcredit
    have hsame : sum = r := by
      apply Reserves.ext_amountOf (Reserves.Canonical.of_creditAll hcredit) hcanonical
      intro id
      rw [Reserves.toNat_amountOf_of_creditAll hcredit, hamounts]
    rw [hsum, hsame]

/-- Outputs that carry no native coin as a rune are refused for an overflow only. -/
theorem sumUp_eq_error_iff (h : ∀ u ∈ utxos, u.runeId? ≠ some .native) :
    sumUp utxos = .error refusal ↔
      refusal = .overflow ∧
        ¬∀ id, Coin.total (utxos.flatMap coins) id ≤ Reserves.limit id := by
  have hfits : ∀ coin ∈ utxos.flatMap coins, coin.id = .native →
      coin.value.toNat ≤ Word.greatest 64 := by
    intro coin hcoin hid
    obtain ⟨u, hu, hmem⟩ := List.mem_flatMap.1 hcoin
    rcases List.mem_cons.1 hmem with rfl | hrune
    · rw [Coin.native, Quantity.toNat_widen]
      exact Word.toNat_le_greatest u.sats
    · have hlegs := h u hu
      rw [runeId?, Option.mem_toList.1 hrune, Option.map_some, hid] at hlegs
      exact absurd rfl hlegs
  have honly : (sumUp utxos).RefusesOnly (· = .overflow) := by
    rw [sumUp_eq_creditAll]
    intro cause
    exact Reserves.eq_overflow_of_creditAll hfits
  rw [honly.eq_error_iff exists_sumUp_iff, and_comm]

lemma total_coins_of_content (h : (utxos.map content).Perm (utxos'.map content)) (id : CoinId) :
    Coin.total (utxos.flatMap coins) id = Coin.total (utxos'.flatMap coins) id := by
  have hcoins : ∀ us : List Utxo, us.flatMap coins =
      (us.map content).flatMap fun c => Coin.native c.1 :: c.2.toList := by
    intro us
    rw [List.flatMap_map]
    rfl
  rw [hcoins, hcoins]
  exact Coin.total_perm (h.flatMap_right _) id

/-- Only what the outputs hold counts, and neither their order nor their outpoints. -/
theorem sumUp_of_content (hlegs : ∀ u ∈ utxos, u.runeId? ≠ some .native)
    (h : (utxos.map content).Perm (utxos'.map content)) : sumUp utxos = sumUp utxos' := by
  have hlegs' : ∀ u ∈ utxos', u.runeId? ≠ some .native := by
    intro u hu
    obtain ⟨v, hv, hcontent⟩ := List.mem_map.1 (h.mem_iff.2 (List.mem_map_of_mem hu))
    have hrune : v.rune = u.rune := congrArg Prod.snd hcontent
    have hv := hlegs v hv
    rwa [runeId?, hrune] at hv
  cases hsum : sumUp utxos' with
  | ok r =>
    obtain ⟨hcanonical, hamounts⟩ := sumUp_eq_ok_iff.1 hsum
    rw [sumUp_eq_ok_iff]
    refine ⟨hcanonical, ?_⟩
    intro id
    rw [hamounts, total_coins_of_content h]
  | error refusal =>
    obtain ⟨hoverflow, hbeyond⟩ := (sumUp_eq_error_iff hlegs').1 hsum
    rw [sumUp_eq_error_iff hlegs]
    refine ⟨hoverflow, ?_⟩
    intro hfits
    apply hbeyond
    intro id
    rw [← total_coins_of_content h]
    exact hfits id

end Utxo

namespace UtxoSet

variable {s t rest : UtxoSet} {ids : List OutPoint} {spent : List Utxo} {r : Reserves}
  {refusal : Refusal}

lemma reserves_eq_sumUp (s : UtxoSet) : s.reserves = Utxo.sumUp s.toList := rfl

/-- The exact sum of every asset fits its width. -/
def Fits (s : UtxoSet) : Prop :=
  s.satsHeld < 2 ^ 64 ∧ ∀ id, id ≠ .native → s.runesHeld id < 2 ^ 128

lemma fits_iff (hs : ∀ u ∈ s.toList, u.runeId? ≠ some .native) :
    s.Fits ↔ ∀ id, Coin.total s.coins id ≤ Reserves.limit id := by
  have hsats : Coin.total s.coins .native = s.satsHeld := total_coins_native hs
  have hrunes : ∀ id, id ≠ .native → Coin.total s.coins id = s.runesHeld id := fun _ hid =>
    total_coins_rune s.toList hid
  have hwidth : ∀ w, Word.greatest w = 2 ^ w - 1 := fun w => BitVec.toNat_allOnes
  constructor
  · rintro ⟨hnative, htokens⟩ id
    unfold Reserves.limit
    split
    · next hid =>
      rw [hid, hsats, hwidth]
      omega
    · next hid =>
      rw [hrunes id hid, hwidth]
      have := htokens id hid
      omega
  · intro h
    constructor
    · have hnative := h .native
      rw [hsats, Reserves.limit, if_pos rfl, hwidth] at hnative
      omega
    · intro id hid
      have htoken := h id
      rw [hrunes id hid, Reserves.limit, if_neg hid, hwidth] at htoken
      omega

/-- Part of a set holds no more than the whole. -/
lemma total_coins_le_of_subset (h : ∀ o u, t.get? o = some u → s.get? o = some u) (id : CoinId) :
    Coin.total t.coins id ≤ Coin.total s.coins id := by
  have hentries : t.outputs.entries = s.outputs.entries.filter fun e => t.get? e.1 = some e.2 := by
    apply SortedMap.eq_of_ascending t.outputs.ascending (s.outputs.ascending.filter _)
    rintro ⟨o, u⟩
    rw [List.mem_filter, ← SortedMap.get?_eq_some_iff, ← SortedMap.get?_eq_some_iff,
      decide_eq_true_iff]
    constructor
    · intro hu
      exact ⟨h o u hu, hu⟩
    · rintro ⟨-, hu⟩
      exact hu
  have htotal := s.total_filter_le (fun e => t.get? e.1 = some e.2) id
  rw [← hentries] at htotal
  exact htotal

theorem exists_reserves_of_subset (h : ∀ o u, t.get? o = some u → s.get? o = some u)
    (hs : s.reserves = .ok r) : ∃ part, t.reserves = .ok part := by
  apply exists_reserves
  intro id
  have hwhole := Utxo.exists_sumUp_iff.1 ⟨r, hs⟩ id
  have hpart := total_coins_le_of_subset h id
  exact hpart.trans hwhole

/-- What is spent and what is left project, and come to what the set projected to. -/
theorem reserves_of_spend (h : s.spend ids = .ok (spent, rest)) (hs : s.reserves = .ok r) :
    ∃ left taken, rest.reserves = .ok left ∧ Utxo.sumUp spent = .ok taken ∧
      ∀ id, (r.amountOf id).toNat = (left.amountOf id).toNat + (taken.amountOf id).toNat := by
  have htotal := total_coins_of_spend h
  have hfits := Utxo.exists_sumUp_iff.1 ⟨r, hs⟩
  have hwhole : ∀ id, Coin.total s.coins id ≤ Reserves.limit id := hfits
  obtain ⟨left, hleft⟩ : ∃ left, rest.reserves = .ok left := by
    apply exists_reserves
    intro id
    have hid := hwhole id
    rw [htotal] at hid
    omega
  obtain ⟨taken, htaken⟩ : ∃ taken, Utxo.sumUp spent = .ok taken := by
    rw [Utxo.exists_sumUp_iff]
    intro id
    have hid := hwhole id
    rw [htotal] at hid
    omega
  refine ⟨left, taken, hleft, htaken, ?_⟩
  intro id
  rw [toNat_amountOf_reserves hs, toNat_amountOf_reserves hleft, (Utxo.sumUp_eq_ok_iff.1 htaken).2,
    htotal, Nat.add_comm]

/-- The projection is the holding of the exact sums in which no token is listed with nothing. -/
theorem reserves_eq_ok_iff (hs : ∀ u ∈ s.toList, u.runeId? ≠ some .native) :
    s.reserves = .ok r ↔
      r.Canonical ∧ r.native.toNat = s.satsHeld ∧
        ∀ id, id ≠ .native → (r.amountOf id).toNat = s.runesHeld id := by
  rw [reserves_eq_sumUp, Utxo.sumUp_eq_ok_iff]
  apply and_congr_right
  intro _
  constructor
  · intro hamounts
    constructor
    · rw [← Reserves.toNat_amountOf_native, hamounts]
      exact total_coins_native hs
    · intro id hid
      rw [hamounts]
      exact total_coins_rune s.toList hid
  · rintro ⟨hnative, htokens⟩ id
    by_cases hid : id = .native
    · rw [hid, Reserves.toNat_amountOf_native, hnative]
      exact (total_coins_native hs).symm
    · rw [htokens id hid]
      exact (total_coins_rune s.toList hid).symm

/-- The set of the spent outputs projects to their sum. -/
lemma reserves_of_spent (hs : ∀ u ∈ s.toList, u.runeId? ≠ some .native)
    (h : s.spend ids = .ok (spent, rest)) (ht : t.toList.Perm spent) :
    t.reserves = Utxo.sumUp spent := by
  have hspent : ∀ u ∈ t.toList, u.runeId? ≠ some .native := by
    intro u hu
    apply hs
    rw [(toList_perm_of_spend h).mem_iff]
    exact List.mem_append_left rest.toList (ht.mem_iff.1 hu)
  rw [reserves_eq_sumUp, Utxo.sumUp_of_content hspent (ht.map Utxo.content)]

/-- The laws of the projection of a set. -/
structure Projects (s : UtxoSet) : Prop where
  accepted : (∃ r, s.reserves = .ok r) ↔ s.Fits
  refused : ∀ refusal, s.reserves = .error refusal ↔ refusal = .overflow ∧ ¬s.Fits
  /-- The projection is the holding of these sums in which no token is listed with nothing. -/
  exact : ∀ r, s.reserves = .ok r ↔
    r.Canonical ∧ r.native.toNat = s.satsHeld ∧
      ∀ id, id ≠ .native → (r.amountOf id).toNat = s.runesHeld id
  order : ∀ utxos : List Utxo, (utxos.map Utxo.content).Perm (s.toList.map Utxo.content) →
    Utxo.sumUp utxos = s.reserves
  part : ∀ (t : UtxoSet) (r : Reserves), (∀ o u, t.get? o = some u → s.get? o = some u) →
    s.reserves = .ok r → ∃ held, t.reserves = .ok held
  parts : ∀ ids spent rest r, s.spend ids = .ok (spent, rest) → s.reserves = .ok r →
    ∃ left taken, rest.reserves = .ok left ∧ Utxo.sumUp spent = .ok taken ∧
      (∀ t : UtxoSet, t.toList.Perm spent → t.reserves = .ok taken) ∧
      ∀ id, (r.amountOf id).toNat = (left.amountOf id).toNat + (taken.amountOf id).toNat

/-- The projection of a set whose runes are tokens is exact, and refused only where it must be. -/
theorem projects_exactly (hs : ∀ u ∈ s.toList, u.runeId? ≠ some .native) : s.Projects where
  accepted := Utxo.exists_sumUp_iff.trans (fits_iff hs).symm
  refused refusal := by
    rw [fits_iff hs]
    exact Utxo.sumUp_eq_error_iff hs
  exact _ := reserves_eq_ok_iff hs
  order utxos hperm := by
    rw [reserves_eq_sumUp]
    exact (Utxo.sumUp_of_content hs hperm.symm).symm
  part _ _ hsubset hr := exists_reserves_of_subset hsubset hr
  parts ids spent rest r hspend hr := by
    obtain ⟨left, taken, hleft, htaken, hsum⟩ := reserves_of_spend hspend hr
    refine ⟨left, taken, hleft, htaken, ?_, hsum⟩
    intro t ht
    rw [reserves_of_spent hs hspend ht, htaken]

open Settlement.Sample (txid token legA legB)

namespace Sample

/-- One more output of the token that the deposit brings. -/
def legC : Utxo := ⟨⟨txid 2, 0#32⟩, 1#64, some ⟨token, 100#128⟩⟩

def held : UtxoSet := ⟨.ofList ([legA, legB, legC].map fun u => (u.outpoint, u))⟩

end Sample

/-- A token in two outputs is split where one of them is spent. -/
theorem projects_exactly_sample :
    Sample.held.satsHeld = 1001 ∧ Sample.held.runesHeld token = 200 ∧
      (∀ u ∈ Sample.held.toList, u.runeId? ≠ some .native) ∧
      ∃ r rest left taken, Sample.held.reserves = .ok r ∧
        Sample.held.spend [Sample.legC.outpoint, legB.outpoint] =
          .ok ([Sample.legC, legB], rest) ∧
        rest.reserves = .ok left ∧ Utxo.sumUp [Sample.legC, legB] = .ok taken ∧
        ∀ id, (r.amountOf id).toNat = (left.amountOf id).toNat + (taken.amountOf id).toNat := by
  obtain ⟨hsats, hrunes, hlegs, hsums, hspends⟩ :
      Sample.held.satsHeld = 1001 ∧ Sample.held.runesHeld token = 200 ∧
        (∀ u ∈ Sample.held.toList, u.runeId? ≠ some .native) ∧
        Sample.held.reserves.isOk = true ∧
        (Sample.held.spend [Sample.legC.outpoint, legB.outpoint]).toOption.map Prod.fst =
          some [Sample.legC, legB] := by
    decide +kernel
  obtain ⟨r, hr⟩ := Outcome.exists_eq_ok_of_isOk hsums
  obtain ⟨⟨spent, rest⟩, hspend, rfl⟩ := Option.map_eq_some_iff.1 hspends
  have hspend := Outcome.toOption_eq_some_iff.1 hspend
  obtain ⟨left, taken, hleft, htaken, -, hsum⟩ :=
    (projects_exactly hlegs).parts _ _ rest r hspend hr
  exact ⟨hsats, hrunes, hlegs, r, rest, left, taken, hr, hspend, hleft, htaken, hsum⟩

end UtxoSet

end RuneSettlement
