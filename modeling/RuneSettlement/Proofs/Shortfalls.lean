import Mathlib.Data.Finset.Card
import RuneSettlement.Proofs.Turnover

/-!
# Shortfalls are exact

Between canonical reserves there is a shortfall just when nothing is lost, and it lists what is
gained of every asset (`Shortfall.exact_of_between`). Outputs at given outpoints make it up just
when there are as many of them as it asks for (`exists_assignReceives_iff`), and together they hold
the shortfall and nothing else (`total_of_assignReceives`).
-/

namespace RuneSettlement

lemma Coin.total_eq_zero_iff {coins : List Coin} {id : CoinId} :
    total coins id = 0 ↔ ∀ coin ∈ coins, coin.id = id → coin.value = 0#128 := by
  induction coins with
  | nil => simp
  | cons coin coins ih =>
    rw [total_cons, Nat.add_eq_zero_iff, ih, List.forall_mem_cons]
    apply and_congr_left'
    by_cases hid : coin.id = id
    · rw [if_pos hid]
      constructor
      · intro hzero _
        exact BitVec.eq_of_toNat_eq hzero
      · intro hzero
        rw [hzero hid]
        rfl
    · simp [hid]

namespace Reserves

lemma ids_tokenCoins (r : Reserves) : r.tokenCoins.map Coin.id = r.tokens.keys := by
  rw [tokenCoins, List.map_map]
  rfl

lemma Canonical.ne_native_of_mem_keys {r : Reserves} (hr : r.Canonical) {id : CoinId}
    (h : id ∈ r.tokens.keys) : id ≠ .native := by
  obtain ⟨e, he, rfl⟩ := List.mem_map.1 h
  exact (hr e.1 e.2 (SortedMap.get?_eq_some_iff.2 he)).1

lemma Canonical.amountOf_of_mem_tokenCoins {r : Reserves} (hr : r.Canonical) {coin : Coin}
    (h : coin ∈ r.tokenCoins) : r.amountOf coin.id = coin.value := by
  obtain ⟨e, he, rfl⟩ := List.mem_map.1 h
  have hget := SortedMap.get?_eq_some_iff.2 he
  rw [amountOf, if_neg (hr e.1 e.2 hget).1, hget, Option.getD_some]

end Reserves

namespace Shortfall

/-- All that a shortfall asks for, the native coin first. -/
def coins (s : Shortfall) : List Coin := Coin.native s.native :: s.tokens

/-- The shortfall is what `post` holds beyond `remaining`, of every asset. -/
structure Exact (s : Shortfall) (remaining post : Reserves) : Prop where
  amount : ∀ id, (remaining.amountOf id).toNat + Coin.total s.coins id = (post.amountOf id).toNat
  listed : (s.tokens.map Coin.id).Sublist post.tokens.keys
  positive : ∀ coin ∈ s.tokens, coin.value ≠ 0#128

section Between

variable {remaining post : Reserves} {s : Shortfall}

lemma of_ofHolding?_eq_ok {holding : Coin} {short? : Option Coin}
    (h : ofHolding? remaining holding = .ok short?) :
    (short? = none ∧ holding.value.toNat = (remaining.amountOf holding.id).toNat) ∨
      ∃ short, short? = some ⟨holding.id, short⟩ ∧ short ≠ 0#128 ∧
        holding.value.toNat = (remaining.amountOf holding.id).toNat + short.toNat := by
  simp only [ofHolding?, Outcome.bind_eq_ok_iff, Quantity.sub_eq_ok_iff, Outcome.pure_eq_ok_iff]
    at h
  obtain ⟨short, hshort, rfl⟩ := h
  by_cases hzero : short = 0#128
  · rw [if_pos hzero]
    rw [hzero] at hshort
    exact .inl ⟨rfl, hshort⟩
  · rw [if_neg hzero]
    exact .inr ⟨short, rfl, hzero, hshort⟩

/-- The short coins of some holdings. A token that is listed `n` times is held against `n` times
what remains of it. -/
lemma of_mapM_ofHolding? {holdings : List Coin} {found : List (Option Coin)}
    (h : holdings.mapM (ofHolding? remaining) = .ok found) :
    (∀ asset, (holdings.map Coin.id).count asset * (remaining.amountOf asset).toNat +
        Coin.total (found.filterMap id) asset = Coin.total holdings asset) ∧
      ((found.filterMap id).map Coin.id).Sublist (holdings.map Coin.id) ∧
      ∀ coin ∈ found.filterMap id, coin.value ≠ 0#128 := by
  induction holdings generalizing found with
  | nil =>
    cases h
    simp
  | cons holding holdings ih =>
    simp only [List.mapM_cons, Outcome.bind_eq_ok_iff, Outcome.pure_eq_ok_iff] at h
    obtain ⟨short?, hshort, others, hothers, rfl⟩ := h
    obtain ⟨hamounts, hlisted, hpositive⟩ := ih hothers
    have hcount : ∀ asset, ((holding :: holdings).map Coin.id).count asset =
        (holdings.map Coin.id).count asset + if holding.id = asset then 1 else 0 := by
      intro asset
      rw [List.map_cons, List.count_cons]
      simp only [beq_iff_eq]
    rcases of_ofHolding?_eq_ok hshort with ⟨rfl, hvalue⟩ | ⟨short, rfl, hshort, hvalue⟩
    · refine ⟨?_, hlisted.cons _, hpositive⟩
      intro asset
      have hrest := hamounts asset
      rw [hcount, Coin.total_cons, List.filterMap_cons_none rfl]
      by_cases hasset : holding.id = asset
      · subst hasset
        rw [if_pos rfl, if_pos rfl, Nat.add_mul, Nat.one_mul, hvalue]
        omega
      · rw [if_neg hasset, if_neg hasset, Nat.add_zero, Nat.zero_add]
        exact hrest
    · have hhead : (some ⟨holding.id, short⟩ :: others).filterMap id =
          ⟨holding.id, short⟩ :: others.filterMap id := rfl
      rw [hhead]
      refine ⟨?_, hlisted.cons_cons _, ?_⟩
      · intro asset
        have hrest := hamounts asset
        rw [hcount, Coin.total_cons, Coin.total_cons]
        by_cases hasset : holding.id = asset
        · subst hasset
          rw [if_pos rfl, if_pos rfl, if_pos rfl, Nat.add_mul, Nat.one_mul, hvalue]
          dsimp only
          omega
        · rw [if_neg hasset, if_neg hasset, if_neg hasset, Nat.add_zero, Nat.zero_add,
            Nat.zero_add]
          exact hrest
      · rw [List.forall_mem_cons]
        exact ⟨hshort, hpositive⟩

/-- Where nothing is lost every holding has its short coin. -/
lemma exists_mapM_ofHolding? {holdings : List Coin}
    (h : ∀ holding ∈ holdings, (remaining.amountOf holding.id).toNat ≤ holding.value.toNat) :
    ∃ found, holdings.mapM (ofHolding? remaining) = .ok found := by
  induction holdings with
  | nil => exact ⟨[], rfl⟩
  | cons holding holdings ih =>
    obtain ⟨hfirst, hrest⟩ := List.forall_mem_cons.1 h
    obtain ⟨others, hothers⟩ := ih hrest
    obtain ⟨short, hshort⟩ := Quantity.exists_sub_eq_ok hfirst
    simp only [List.mapM_cons, Outcome.bind_eq_ok_iff, Outcome.pure_eq_ok_iff, ofHolding?]
    exact ⟨_, _, ⟨short, hshort, rfl⟩, others, hothers, rfl⟩

/-- No token is lost if no listed one is. -/
lemma le_of_ne_native
    (hheld : ∀ coin ∈ remaining.tokenCoins, coin.value.toNat ≤ (post.amountOf coin.id).toNat)
    {asset : CoinId} (hasset : asset ≠ .native) :
    (remaining.amountOf asset).toNat ≤ (post.amountOf asset).toNat := by
  cases hget : remaining.tokens.get? asset with
  | none =>
    rw [Reserves.amountOf, if_neg hasset, hget]
    exact Nat.zero_le _
  | some amount =>
    have hcoin : ⟨asset, amount⟩ ∈ remaining.tokenCoins :=
      List.mem_map.2 ⟨_, SortedMap.get?_eq_some_iff.1 hget, rfl⟩
    have hle := hheld _ hcoin
    rwa [Reserves.amountOf, if_neg hasset, hget]

/-- No asset is lost if the native coin and no listed token is. -/
lemma le_of_tokenCoins (hnative : post.native.toNat = remaining.native.toNat + s.native.toNat)
    (hheld : ∀ coin ∈ remaining.tokenCoins, coin.value.toNat ≤ (post.amountOf coin.id).toNat)
    (asset : CoinId) : (remaining.amountOf asset).toNat ≤ (post.amountOf asset).toNat := by
  by_cases hasset : asset = .native
  · rw [hasset, Reserves.toNat_amountOf_native, Reserves.toNat_amountOf_native, hnative]
    exact Nat.le_add_right _ _
  · exact le_of_ne_native hheld hasset

lemma between_eq_ok_iff :
    between remaining post = .ok s ↔
      post.native.toNat = remaining.native.toNat + s.native.toNat ∧
        (∀ coin ∈ remaining.tokenCoins, coin.value.toNat ≤ (post.amountOf coin.id).toNat) ∧
        ∃ found, post.tokenCoins.mapM (ofHolding? remaining) = .ok found ∧
          s.tokens = found.filterMap id := by
  simp only [between, Outcome.bind_eq_ok_iff, Outcome.unless_eq_ok_iff, Outcome.ofOption_eq_ok_iff,
    Word.sub?_eq_some_iff, Outcome.pure_eq_ok_iff, List.any_eq_true, decide_eq_true_eq, not_exists,
    not_and, Nat.not_lt]
  constructor
  · rintro ⟨native, hnative, hheld, found, hfound, rfl⟩
    exact ⟨hnative, hheld, found, hfound, rfl⟩
  · rintro ⟨hnative, hheld, found, hfound, htokens⟩
    refine ⟨s.native, hnative, hheld, found, hfound, ?_⟩
    rw [← htokens]

/-- A shortfall between canonical reserves is exact. -/
theorem exact_of_between (hpost : post.Canonical) (h : between remaining post = .ok s) :
    s.Exact remaining post := by
  obtain ⟨hnative, hheld, found, hfound, htokens⟩ := between_eq_ok_iff.1 h
  obtain ⟨hamounts, hlisted, hpositive⟩ := of_mapM_ofHolding? hfound
  rw [Reserves.ids_tokenCoins, ← htokens] at hlisted
  rw [← htokens] at hamounts hpositive
  refine ⟨?_, hlisted, hpositive⟩
  intro asset
  have hamount := hamounts asset
  rw [Reserves.ids_tokenCoins, Reserves.total_tokenCoins] at hamount
  rw [coins, Coin.total_cons]
  by_cases hasset : asset = .native
  · subst hasset
    have hunlisted : CoinId.native ∉ post.tokens.keys := fun hmem =>
      hpost.ne_native_of_mem_keys hmem rfl
    have hnone : post.tokens.get? .native = none := by
      rw [Option.eq_none_iff_forall_not_mem]
      intro amount hget
      exact (hpost _ amount hget).1 rfl
    rw [List.count_eq_zero_of_not_mem hunlisted, hnone] at hamount
    have hzero : Coin.total s.tokens .native = 0 := by simpa using hamount
    rw [hzero, Reserves.toNat_amountOf_native, Reserves.toNat_amountOf_native, hnative]
    simp [Coin.native]
  · have hskip : (Coin.native s.native).id ≠ asset := Ne.symm hasset
    rw [if_neg hskip, Nat.zero_add]
    by_cases hlists : asset ∈ post.tokens.keys
    · rw [List.count_eq_one_of_mem post.tokens.nodup_keys hlists, Nat.one_mul] at hamount
      rw [hamount, Reserves.amountOf, if_neg hasset]
    · have hnone : post.tokens.get? asset = none := by
        rw [Option.eq_none_iff_forall_not_mem]
        intro amount hget
        exact hlists (List.mem_map.2 ⟨_, SortedMap.get?_eq_some_iff.1 hget, rfl⟩)
      rw [List.count_eq_zero_of_not_mem hlists, hnone] at hamount
      have hzero : Coin.total s.tokens asset = 0 := by simpa using hamount
      have hpostZero : (post.amountOf asset).toNat = 0 := by
        rw [Reserves.amountOf, if_neg hasset, hnone]
        rfl
      have hle := le_of_tokenCoins hnative hheld asset
      omega

/-- Between canonical reserves there is a shortfall where nothing is lost. -/
lemma exists_between (hremaining : remaining.Canonical) (hpost : post.Canonical)
    (h : ∀ asset, (remaining.amountOf asset).toNat ≤ (post.amountOf asset).toNat) :
    ∃ s, between remaining post = .ok s := by
  have hnative := h .native
  rw [Reserves.toNat_amountOf_native, Reserves.toNat_amountOf_native] at hnative
  obtain ⟨native, hsub⟩ := Quantity.exists_sub_eq_ok hnative
  obtain ⟨found, hfound⟩ : ∃ found, post.tokenCoins.mapM (ofHolding? remaining) = .ok found := by
    apply exists_mapM_ofHolding?
    intro holding hholding
    rw [← hpost.amountOf_of_mem_tokenCoins hholding]
    exact h holding.id
  refine ⟨⟨native, found.filterMap id⟩, between_eq_ok_iff.2 ⟨Quantity.sub_eq_ok_iff.1 hsub, ?_,
    found, hfound, rfl⟩⟩
  intro coin hcoin
  rw [← hremaining.amountOf_of_mem_tokenCoins hcoin]
  exact h coin.id

lemma Exact.nodup_tokens (hs : s.Exact remaining post) : (s.tokens.map Coin.id).Nodup :=
  hs.listed.nodup post.tokens.nodup_keys

/-- No short token is the native coin. -/
lemma Exact.ne_native (hs : s.Exact remaining post) (hpost : post.Canonical) {coin : Coin}
    (h : coin ∈ s.tokens) : coin.id ≠ .native :=
  hpost.ne_native_of_mem_keys (hs.listed.subset (List.mem_map_of_mem h))

end Between

/-! ### The number of outputs -/

/-- How many outputs make up a shortfall that is known by its amounts: none if it is zero, and
otherwise one for each short token, but one at least. -/
structure Count (short : CoinId → Nat) (n : Nat) : Prop where
  zero : (∀ id, short id = 0) → n = 0
  tokens : (∃ id, short id ≠ 0) → ∃ tokens : Finset CoinId,
    (∀ id, id ∈ tokens ↔ id ≠ .native ∧ short id ≠ 0) ∧ n = max 1 tokens.card

section Counting

variable {remaining post : Reserves} {s : Shortfall}

lemma Exact.total_eq_zero_iff (hs : s.Exact remaining post) :
    (∀ id, Coin.total s.coins id = 0) ↔ s.native = 0#64 ∧ s.tokens = [] := by
  constructor
  · intro h
    constructor
    · have hvalue : Quantity.widen s.native = 0#128 :=
        Coin.total_eq_zero_iff.1 (h .native) _ List.mem_cons_self rfl
      have hnumber := congrArg BitVec.toNat hvalue
      rw [Quantity.toNat_widen] at hnumber
      exact BitVec.eq_of_toNat_eq hnumber
    · rw [List.eq_nil_iff_forall_not_mem]
      intro coin hcoin
      exact hs.positive coin hcoin
        (Coin.total_eq_zero_iff.1 (h coin.id) coin (List.mem_cons_of_mem _ hcoin) rfl)
  · rintro ⟨hnative, htokens⟩ id
    rw [coins, hnative, htokens, Coin.total_eq_zero_iff]
    simp [Coin.native, Quantity.widen]

/-- The tokens of a shortfall are those that it has an amount of. -/
lemma Exact.mem_tokens_iff (hs : s.Exact remaining post) (hpost : post.Canonical) (id : CoinId) :
    id ∈ s.tokens.map Coin.id ↔ id ≠ .native ∧ Coin.total s.coins id ≠ 0 := by
  constructor
  · intro hmem
    refine ⟨hpost.ne_native_of_mem_keys (hs.listed.subset hmem), ?_⟩
    obtain ⟨coin, hcoin, rfl⟩ := List.mem_map.1 hmem
    intro hzero
    exact hs.positive coin hcoin
      (Coin.total_eq_zero_iff.1 hzero coin (List.mem_cons_of_mem _ hcoin) rfl)
  · rintro ⟨hid, hne⟩
    by_contra habsent
    apply hne
    rw [Coin.total_eq_zero_iff]
    intro coin hcoin hcoinId
    rcases List.mem_cons.1 hcoin with rfl | htoken
    · exact absurd hcoinId.symm hid
    · exact absurd (List.mem_map.2 ⟨coin, htoken, hcoinId⟩) habsent

/-- An exact shortfall asks for as many outputs as its amounts do. -/
theorem Exact.count_iff (hs : s.Exact remaining post) (hpost : post.Canonical) {n : Nat} :
    Count (Coin.total s.coins) n ↔ n = s.outputCount := by
  have hcard : (s.tokens.map Coin.id).toFinset.card = s.tokens.length := by
    rw [List.toFinset_card_of_nodup hs.nodup_tokens, List.length_map]
  have hmem : ∀ id, id ∈ (s.tokens.map Coin.id).toFinset ↔
      id ≠ .native ∧ Coin.total s.coins id ≠ 0 := by
    intro id
    rw [List.mem_toFinset, hs.mem_tokens_iff hpost]
  by_cases hzero : ∀ id, Coin.total s.coins id = 0
  · have hcount : s.outputCount = 0 := if_pos (hs.total_eq_zero_iff.1 hzero)
    rw [hcount]
    constructor
    · intro h
      exact h.zero hzero
    · intro hn
      exact ⟨fun _ => hn, fun ⟨id, hne⟩ => absurd (hzero id) hne⟩
  · have hcount : s.outputCount = max 1 s.tokens.length := if_neg (mt hs.total_eq_zero_iff.2 hzero)
    rw [hcount]
    constructor
    · intro h
      obtain ⟨tokens, htokens, hn⟩ := h.tokens (not_forall.1 hzero)
      have hsame : tokens = (s.tokens.map Coin.id).toFinset := by
        ext id
        rw [htokens, hmem]
      rw [hn, hsame, hcard]
    · intro hn
      exact ⟨fun hall => absurd hall hzero, fun _ => ⟨_, hmem, hn.trans (by rw [hcard])⟩⟩

end Counting

lemma length_tokens_le_outputCount (s : Shortfall) : s.tokens.length ≤ s.outputCount := by
  unfold outputCount
  split
  · next h => rw [h.2, List.length_nil]
  · exact Nat.le_max_right _ _

lemma native_of_outputCount {s : Shortfall} (h : s.outputCount = 0) : s.native = 0#64 := by
  unfold outputCount at h
  split at h
  · next hzero => exact hzero.1
  · have := Nat.le_max_left 1 s.tokens.length
    omega

/-! ### Outputs that make up a shortfall -/

section Filling

variable {sats : Sats} {ids : List OutPoint} {tokens : List Coin} {utxos : List Utxo}

lemma exists_fill (h : ∀ coin ∈ tokens, coin.id ≠ .native) :
    ∃ utxos, fill sats ids tokens = .ok utxos := by
  induction ids generalizing sats tokens with
  | nil => exact ⟨[], rfl⟩
  | cons id ids ih =>
    obtain ⟨others, hothers⟩ : ∃ others, fill 0#64 ids tokens.tail = .ok others := by
      apply ih
      intro coin hcoin
      exact h coin (List.mem_of_mem_tail hcoin)
    refine ⟨_, fill_cons_eq_ok_iff.2 ⟨?_, others, hothers, rfl⟩⟩
    intro coin hcoin
    exact h coin (List.mem_of_mem_head? hcoin)

/-- Enough outputs hold all they are filled with. -/
lemma total_of_fill (h : fill sats ids tokens = .ok utxos) (hlength : tokens.length ≤ ids.length)
    (hsats : ids = [] → sats = 0#64) (id : CoinId) :
    Coin.total (utxos.flatMap Utxo.coins) id = Coin.total (Coin.native sats :: tokens) id := by
  induction ids generalizing sats tokens utxos with
  | nil =>
    cases h
    obtain rfl := List.length_eq_zero_iff.1 (Nat.le_zero.1 hlength)
    rw [hsats rfl]
    simp [Coin.native, Quantity.widen]
  | cons o ids ih =>
    obtain ⟨-, others, hothers, rfl⟩ := fill_cons_eq_ok_iff.1 h
    have hrest := ih hothers (by simpa using hlength) (fun _ => rfl)
    have hnone : Coin.total [Coin.native 0#64] id = 0 := by simp [Coin.native, Quantity.widen]
    rw [List.flatMap_cons, Coin.total_append, hrest, Utxo.coins]
    cases tokens with
    | nil => simpa using hnone
    | cons coin tokens =>
      simp only [Coin.total_cons, Coin.total_nil, Nat.add_zero] at hnone
      simp only [List.head?_cons, Option.toList_some, List.tail_cons, Coin.total_cons,
        Coin.total_nil, hnone]
      omega

end Filling

end Shortfall

section Assigning

variable {ids : List OutPoint} {remaining post : Reserves}

/-- New outputs can make up what remains of canonical reserves just when nothing is lost and there
are as many outpoints as the gain asks for. -/
theorem exists_assignReceives_iff (hremaining : remaining.Canonical) (hpost : post.Canonical) :
    (∃ outputs, assignReceives ids remaining post = .ok outputs) ↔
      (∀ id, (remaining.amountOf id).toNat ≤ (post.amountOf id).toNat) ∧
      Shortfall.Count (fun id => (post.amountOf id).toNat - (remaining.amountOf id).toNat)
        ids.length := by
  have hshort : ∀ {s : Shortfall}, s.Exact remaining post →
      (fun id => (post.amountOf id).toNat - (remaining.amountOf id).toNat) =
        Coin.total s.coins := by
    intro s hs
    funext id
    have := hs.amount id
    omega
  constructor
  · rintro ⟨outputs, h⟩
    obtain ⟨s, hbetween, hcount, -⟩ := assignReceives_eq_ok_iff.1 h
    have hs := Shortfall.exact_of_between hpost hbetween
    refine ⟨fun id => Nat.le.intro (hs.amount id), ?_⟩
    rwa [hshort hs, hs.count_iff hpost]
  · rintro ⟨hle, hcount⟩
    obtain ⟨s, hbetween⟩ := Shortfall.exists_between hremaining hpost hle
    have hs := Shortfall.exact_of_between hpost hbetween
    rw [hshort hs, hs.count_iff hpost] at hcount
    obtain ⟨utxos, hutxos⟩ : ∃ utxos, Shortfall.fill s.native ids s.tokens = .ok utxos := by
      apply Shortfall.exists_fill
      intro coin hcoin
      exact hs.ne_native hpost hcoin
    exact ⟨utxos, assignReceives_eq_ok_iff.2 ⟨s, hbetween, hcount, hutxos⟩⟩

/-- The new outputs hold exactly what `post` holds beyond what remains. -/
theorem total_of_assignReceives (hpost : post.Canonical) {outputs : List Utxo}
    (h : assignReceives ids remaining post = .ok outputs) (id : CoinId) :
    (remaining.amountOf id).toNat + Coin.total (outputs.flatMap Utxo.coins) id =
      (post.amountOf id).toNat := by
  obtain ⟨s, hbetween, hcount, hfill⟩ := assignReceives_eq_ok_iff.1 h
  have hs := Shortfall.exact_of_between hpost hbetween
  have hlength : s.tokens.length ≤ ids.length := hcount ▸ s.length_tokens_le_outputCount
  have hnative : ids = [] → s.native = 0#64 := by
    rintro rfl
    exact Shortfall.native_of_outputCount hcount.symm
  rw [Shortfall.total_of_fill hfill hlength hnative]
  exact hs.amount id

end Assigning

end RuneSettlement
