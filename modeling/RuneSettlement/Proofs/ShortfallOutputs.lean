import RuneSettlement.Proofs.Alarms

/-!
# Which new output carries what

The outputs that raise canonical reserves to others are accepted just when nothing is lost and there
are as many outpoints as there are tokens to gain, or one for the native coin alone. Each token that
is gained stands in an output of its own, in the order of the tokens, and the first output carries
the native coin (`assignReceives_exact`). A loss is told before a wrong number of outpoints.
-/

namespace RuneSettlement

namespace Coin

/-- A coin that is listed once is all there is of its asset. -/
lemma total_of_mem {coins : List Coin} (hnodup : (coins.map Coin.id).Nodup) {coin : Coin}
    (h : coin ∈ coins) : total coins coin.id = coin.value.toNat := by
  induction coins with
  | nil => cases h
  | cons first coins ih =>
    rw [List.map_cons, List.nodup_cons] at hnodup
    obtain ⟨hfirst, hnodup⟩ := hnodup
    rw [total_cons]
    rcases List.mem_cons.1 h with rfl | hmem
    · have hnone : total coins coin.id = 0 := by
        rw [total_eq_zero_iff]
        intro other hother hid
        exact absurd (List.mem_map.2 ⟨other, hother, hid⟩) hfirst
      rw [if_pos rfl, hnone, Nat.add_zero]
    · have hother : first.id ≠ coin.id := by
        intro hid
        exact hfirst (List.mem_map.2 ⟨coin, hmem, hid.symm⟩)
      rw [if_neg hother, Nat.zero_add]
      exact ih hnodup hmem

end Coin

namespace Reserves

variable {remaining post : Reserves}

/-- Nothing is lost from `remaining` to `post`. -/
def Covers (remaining post : Reserves) : Prop :=
  ∀ id, (remaining.amountOf id).toNat ≤ (post.amountOf id).toNat

/-- The tokens of which `post` holds more than `remaining`, ascending. -/
def gained (remaining post : Reserves) : List CoinId :=
  post.tokens.keys.filter fun id =>
    decide ((remaining.amountOf id).toNat < (post.amountOf id).toNat)

/-- The number of outputs that raise `remaining` to `post`. -/
def needed (remaining post : Reserves) : Nat :=
  if remaining = post then 0 else max 1 (remaining.gained post).length

lemma ascending_gained (remaining post : Reserves) :
    (remaining.gained post).Pairwise fun a b => Key.before a b = true :=
  (List.pairwise_map.2 post.tokens.ascending).filter _

lemma Canonical.mem_gained_iff (hpost : post.Canonical) (id : CoinId) :
    id ∈ remaining.gained post ↔
      id ≠ .native ∧ (remaining.amountOf id).toNat < (post.amountOf id).toNat := by
  rw [gained, List.mem_filter, decide_eq_true_iff, hpost.mem_keys_iff]
  constructor
  · rintro ⟨⟨hid, -⟩, hmore⟩
    exact ⟨hid, hmore⟩
  · rintro ⟨hid, hmore⟩
    exact ⟨⟨hid, by omega⟩, hmore⟩

end Reserves

namespace Shortfall

variable {remaining post : Reserves} {s : Shortfall} {ids : List OutPoint} {refusal : Refusal}

section Exact

lemma Exact.covers (hs : s.Exact remaining post) : remaining.Covers post :=
  fun id => Nat.le.intro (hs.amount id)

/-- A shortfall lists the tokens that are gained. -/
lemma Exact.ids_tokens (hs : s.Exact remaining post) (hpost : post.Canonical) :
    s.tokens.map Coin.id = remaining.gained post := by
  have hmem : ∀ id, id ∈ s.tokens.map Coin.id ↔ id ∈ remaining.gained post := by
    intro id
    have hamount := hs.amount id
    rw [hs.mem_tokens_iff hpost, hpost.mem_gained_iff]
    apply and_congr_right
    intro _
    omega
  have hperm : (s.tokens.map Coin.id).Perm (remaining.gained post) :=
    (List.perm_ext_iff_of_nodup hs.nodup_tokens (post.tokens.nodup_keys.filter _)).2 hmem
  have hlisted := hs.listed.filter fun id =>
    decide ((remaining.amountOf id).toNat < (post.amountOf id).toNat)
  have hall : (s.tokens.map Coin.id).filter (fun id =>
      decide ((remaining.amountOf id).toNat < (post.amountOf id).toNat)) =
        s.tokens.map Coin.id := by
    rw [List.filter_eq_self]
    intro id hid
    exact (List.mem_filter.1 ((hmem id).1 hid)).2
  rw [hall] at hlisted
  exact hlisted.eq_of_length hperm.length_eq

lemma Exact.toNat_value (hs : s.Exact remaining post) (hpost : post.Canonical) {coin : Coin}
    (h : coin ∈ s.tokens) :
    (remaining.amountOf coin.id).toNat + coin.value.toNat = (post.amountOf coin.id).toNat := by
  have hid : (Coin.native s.native).id ≠ coin.id := (hs.ne_native hpost h).symm
  rw [← hs.amount coin.id, coins, Coin.total_cons, if_neg hid, Nat.zero_add,
    Coin.total_of_mem hs.nodup_tokens h]

lemma Exact.toNat_native (hs : s.Exact remaining post) (hpost : post.Canonical) :
    remaining.native.toNat + s.native.toNat = post.native.toNat := by
  have hnone : Coin.total s.tokens .native = 0 := by
    rw [Coin.total_eq_zero_iff]
    intro coin hcoin hid
    exact absurd hid (hs.ne_native hpost hcoin)
  have hid : (Coin.native s.native).id = .native := rfl
  have hvalue : (Coin.native s.native).value.toNat = s.native.toNat := Quantity.toNat_widen _
  have hamount := hs.amount .native
  rw [coins, Coin.total_cons, if_pos hid, hnone, hvalue, Nat.add_zero] at hamount
  rwa [Reserves.toNat_amountOf_native, Reserves.toNat_amountOf_native] at hamount

lemma Exact.outputCount_eq (hs : s.Exact remaining post) (hremaining : remaining.Canonical)
    (hpost : post.Canonical) : s.outputCount = remaining.needed post := by
  have hsame : s.native = 0#64 ∧ s.tokens = [] ↔ remaining = post := by
    rw [← hs.total_eq_zero_iff]
    constructor
    · intro hzero
      apply Reserves.ext_amountOf hremaining hpost
      intro id
      have hamount := hs.amount id
      rw [hzero id] at hamount
      exact hamount
    · rintro rfl id
      have hamount := hs.amount id
      omega
  have hlength : s.tokens.length = (remaining.gained post).length := by
    rw [← hs.ids_tokens hpost, List.length_map]
  unfold outputCount Reserves.needed
  rw [hlength]
  exact if_congr hsame rfl rfl

end Exact

lemma exists_between_iff (hremaining : remaining.Canonical) (hpost : post.Canonical) :
    (∃ s, between remaining post = .ok s) ↔ remaining.Covers post := by
  constructor
  · rintro ⟨s, hs⟩
    exact (exact_of_between hpost hs).covers
  · exact exists_between hremaining hpost

lemma between_eq_error_iff (hremaining : remaining.Canonical) (hpost : post.Canonical) :
    between remaining post = .error refusal ↔
      ¬remaining.Covers post ∧ refusal = .invalidLiquidity :=
  (refusesOnly_between hpost).eq_error_iff (exists_between_iff hremaining hpost)

lemma outputs_eq_error_iff (htokens : ∀ coin ∈ s.tokens, coin.id ≠ .native) :
    s.outputs ids = .error refusal ↔ ids.length ≠ s.outputCount ∧ refusal = .invalidInput := by
  unfold outputs
  by_cases hlength : ids.length = s.outputCount
  · obtain ⟨utxos, hutxos⟩ : ∃ utxos, fill s.native ids s.tokens = .ok utxos := exists_fill htokens
    simp [hlength, hutxos]
  · simp [hlength, eq_comm]

/-- The outputs in their places. -/
lemma getElem?_fill {sats : Sats} {tokens : List Coin} {utxos : List Utxo}
    (h : fill sats ids tokens = .ok utxos) (i : Nat) :
    utxos[i]? = (ids[i]?).map fun id => ⟨id, if i = 0 then sats else 0#64, tokens[i]?⟩ := by
  induction ids generalizing sats tokens utxos i with
  | nil =>
    cases h
    rfl
  | cons id ids ih =>
    obtain ⟨-, others, hothers, rfl⟩ := fill_cons_eq_ok_iff.1 h
    cases i with
    | zero =>
      rw [List.getElem?_cons_zero, List.getElem?_cons_zero, List.head?_eq_getElem?]
      rfl
    | succ i =>
      rw [List.getElem?_cons_succ, List.getElem?_cons_succ, ih hothers, List.getElem?_tail]
      simp

end Shortfall

/-- Outputs at some outpoints that raise `remaining` to `post`. -/
structure Raises (outputs : List Utxo) (ids : List OutPoint) (remaining post : Reserves) :
    Prop where
  outpoints : outputs.map (·.outpoint) = ids
  /-- The first output carries all of the native coin. -/
  native : ∀ (i : Nat) (u : Utxo), outputs[i]? = some u →
    u.sats.toNat = if i = 0 then post.native.toNat - remaining.native.toNat else 0
  /-- The tokens that are gained come in their order, one to an output. -/
  token : ∀ (i : Nat) (u : Utxo), outputs[i]? = some u → u.runeId? = (remaining.gained post)[i]?
  amount : ∀ u ∈ outputs, ∀ coin, u.rune = some coin →
    (remaining.amountOf coin.id).toNat + coin.value.toNat = (post.amountOf coin.id).toNat
  laden : ∀ u ∈ outputs, u.Laden
  total : ∀ id, (remaining.amountOf id).toNat + Coin.total (outputs.flatMap Utxo.coins) id =
    (post.amountOf id).toNat

/-- What becomes of a request to raise `remaining` to `post` with outputs at `ids`. -/
structure AssignsExactly (ids : List OutPoint) (remaining post : Reserves) : Prop where
  ascending : (remaining.gained post).Pairwise fun a b => Key.before a b = true
  gained : ∀ id, id ∈ remaining.gained post ↔
    id ≠ .native ∧ (remaining.amountOf id).toNat < (post.amountOf id).toNat
  accepted : (∃ outputs, assignReceives ids remaining post = .ok outputs) ↔
    remaining.Covers post ∧ ids.length = remaining.needed post
  /-- A loss is told before a wrong number of outpoints, and no other refusal is given. -/
  refused : ∀ refusal, assignReceives ids remaining post = .error refusal ↔
    (¬remaining.Covers post ∧ refusal = .invalidLiquidity) ∨
      (remaining.Covers post ∧ ids.length ≠ remaining.needed post ∧ refusal = .invalidInput)
  assigned : ∀ outputs, assignReceives ids remaining post = .ok outputs →
    Raises outputs ids remaining post

section Assigning

variable {ids : List OutPoint} {remaining post : Reserves} {outputs : List Utxo}

lemma raises_of_assignReceives (hpost : post.Canonical)
    (h : assignReceives ids remaining post = .ok outputs) :
    Raises outputs ids remaining post := by
  obtain ⟨s, hbetween, hcount, hfill⟩ := assignReceives_eq_ok_iff.1 h
  have hs := Shortfall.exact_of_between hpost hbetween
  have hplaces := Shortfall.getElem?_fill hfill
  constructor
  case outpoints => exact outpoints_of_assignReceives h
  case native =>
    intro i u hu
    rw [hplaces] at hu
    obtain ⟨id, -, rfl⟩ := Option.map_eq_some_iff.1 hu
    have hnative := hs.toNat_native hpost
    dsimp only
    split
    · omega
    · rfl
  case token =>
    intro i u hu
    rw [hplaces] at hu
    obtain ⟨id, -, rfl⟩ := Option.map_eq_some_iff.1 hu
    rw [← hs.ids_tokens hpost, List.getElem?_map]
    rfl
  case amount =>
    intro u hu coin hcoin
    exact hs.toNat_value hpost (Shortfall.mem_of_fill hfill hu hcoin)
  case laden => exact hs.laden_of_fill hpost hcount hfill
  case total => exact total_of_assignReceives hpost h

lemma assignReceives_eq_error_iff (hremaining : remaining.Canonical) (hpost : post.Canonical)
    {refusal : Refusal} :
    assignReceives ids remaining post = .error refusal ↔
      (¬remaining.Covers post ∧ refusal = .invalidLiquidity) ∨
        (remaining.Covers post ∧ ids.length ≠ remaining.needed post ∧
          refusal = .invalidInput) := by
  have houtputs : ∀ s, Shortfall.between remaining post = .ok s →
      (s.outputs ids = .error refusal ↔
        ids.length ≠ remaining.needed post ∧ refusal = .invalidInput) := by
    intro s hs
    rw [Shortfall.outputs_eq_error_iff fun _ => Shortfall.ne_native_of_between hpost hs,
      (Shortfall.exact_of_between hpost hs).outputCount_eq hremaining hpost]
  rw [assignReceives, Outcome.bind_eq_error_iff, Shortfall.between_eq_error_iff hremaining hpost]
  apply or_congr_right
  constructor
  · rintro ⟨s, hs, herror⟩
    exact ⟨(Shortfall.exact_of_between hpost hs).covers, (houtputs s hs).1 herror⟩
  · rintro ⟨hcovers, hlength⟩
    obtain ⟨s, hs⟩ := Shortfall.exists_between hremaining hpost hcovers
    exact ⟨s, hs, (houtputs s hs).2 hlength⟩

lemma exists_assignReceives_iff_needed (hremaining : remaining.Canonical)
    (hpost : post.Canonical) :
    (∃ outputs, assignReceives ids remaining post = .ok outputs) ↔
      remaining.Covers post ∧ ids.length = remaining.needed post := by
  constructor
  · rintro ⟨outputs, h⟩
    obtain ⟨s, hbetween, hcount, -⟩ := assignReceives_eq_ok_iff.1 h
    have hs := Shortfall.exact_of_between hpost hbetween
    exact ⟨hs.covers, hcount.trans (hs.outputCount_eq hremaining hpost)⟩
  · rintro ⟨hcovers, hlength⟩
    cases h : assignReceives ids remaining post with
    | ok outputs => exact ⟨outputs, rfl⟩
    | error refusal =>
      rcases (assignReceives_eq_error_iff hremaining hpost).1 h with ⟨hlost, -⟩ | ⟨-, hother, -⟩
      · exact absurd hcovers hlost
      · exact absurd hlength hother

/-- New outputs are given just when nothing is lost and their number is right, and then the first
carries the native coin and each the next token that is gained, by exactly what is gained. -/
theorem assignReceives_exact (hremaining : remaining.Canonical) (hpost : post.Canonical)
    (ids : List OutPoint) : AssignsExactly ids remaining post := by
  constructor
  case ascending => exact Reserves.ascending_gained remaining post
  case gained => exact hpost.mem_gained_iff
  case accepted => exact exists_assignReceives_iff_needed hremaining hpost
  case refused =>
    intro refusal
    exact assignReceives_eq_error_iff hremaining hpost
  case assigned =>
    intro outputs h
    exact raises_of_assignReceives hpost h

/-- Of three tokens one is kept, one is gained and one is new. -/
theorem assignReceives_exact_sample :
    let token (tx : Nat) : CoinId := .rune 840000#64 (.ofNat 32 tx)
    let kept : SortedMap CoinId Amount := SortedMap.empty.insert (token 1) 7#128
    let remaining : Reserves := ⟨5#64, kept.insert (token 2) 3#128⟩
    let post : Reserves := ⟨9#64, (kept.insert (token 3) 4#128).insert (token 2) 8#128⟩
    let first : Utxo := ⟨⟨Settlement.Sample.txid 1, 0#32⟩, 4#64, some ⟨token 2, 5#128⟩⟩
    let second : Utxo := ⟨⟨Settlement.Sample.txid 1, 1#32⟩, 0#64, some ⟨token 3, 4#128⟩⟩
    let ids := [first.outpoint, second.outpoint]
    remaining.Canonical ∧ post.Canonical ∧ remaining.gained post = [token 2, token 3] ∧
      AssignsExactly ids remaining post ∧ Raises [first, second] ids remaining post := by
  intro token kept remaining post first second ids
  have hkept : ∀ native, Reserves.Canonical ⟨native, kept⟩ := by
    intro native
    have hnone : Reserves.Canonical ⟨native, .empty⟩ := Reserves.canonical_empty
    exact hnone.insert (by decide) (by decide)
  have hremaining : remaining.Canonical := (hkept 5#64).insert (by decide) (by decide)
  have hpost : post.Canonical :=
    ((hkept 9#64).insert (by decide) (by decide)).insert (by decide) (by decide)
  have hexact := assignReceives_exact hremaining hpost ids
  have hassigned : assignReceives ids remaining post = .ok [first, second] := by decide +kernel
  exact ⟨hremaining, hpost, by decide +kernel, hexact, hexact.assigned _ hassigned⟩

end Assigning

end RuneSettlement
