import RuneSettlement.Proofs.Acceptance
import RuneSettlement.Proofs.Atomicity
import RuneSettlement.Proofs.ExactReserves

/-!
# First deposits

A pool takes a first deposit of two legs just when these bring what it was registered for
(`Registry.exists_deposit_iff`), and then it owns the two legs and nothing else (`Pool.Opens`). The
legs are checked one after the other, yet it does not matter which comes first, unless they carry
different runes: the refusal then names the rune of the first leg first
(`Registry.deposit_admits`).
-/

namespace RuneSettlement

namespace Pool

variable {p next : Pool} {legs : List Utxo} {legA legB : Utxo}

lemma isFunded_eq_false_iff : p.isFunded = false ↔ p.utxos = .empty := by
  rw [isFunded, Bool.not_eq_false', UtxoSet.isEmpty_iff]

lemma fund_perm {legs' : List Utxo} (h : legs.Perm legs') (p : Pool) :
    p.fund legs = p.fund legs' := by
  rw [fund, fund, UtxoSet.receive_perm h]

/-- A pool that owns nothing can be funded with legs that lie apart and whose sums fit. -/
lemma exists_fund_iff (hempty : p.utxos = .empty) :
    (∃ funded, p.fund legs = .ok funded) ↔ (legs.map (·.outpoint)).Nodup ∧
      ∀ id, Coin.total (legs.flatMap Utxo.coins) id ≤ Reserves.limit id := by
  constructor
  · rintro ⟨funded, hfund⟩
    have hunfunded := isFunded_eq_false_iff.2 hempty
    constructor
    · obtain ⟨utxos, _, hreceive, -, -⟩ := fund_eq_ok_iff.1 hfund
      exact (UtxoSet.of_receive_eq_ok hreceive).1
    · intro id
      rw [← toNat_amountOf_fund hunfunded hfund]
      exact funded.reserves.toNat_amountOf_le_limit id
  · rintro ⟨hapart, hfits⟩
    obtain ⟨utxos, hreceive⟩ : ∃ utxos, p.utxos.receive legs = .ok utxos := by
      refine UtxoSet.exists_receive hapart fun u _ => ?_
      rw [hempty, UtxoSet.get?_empty]
    obtain ⟨reserves, hreserves⟩ : ∃ reserves, utxos.reserves = .ok reserves := by
      apply UtxoSet.exists_reserves
      intro id
      have hperm := UtxoSet.toList_perm_of_receive hreceive
      rw [hempty] at hperm
      have hlegs : utxos.toList.Perm legs := hperm.trans (.of_eq (List.append_nil legs))
      rw [UtxoSet.coins, Coin.total_perm (hlegs.flatMap_right Utxo.coins)]
      exact hfits id
    exact ⟨_, fund_eq_ok_iff.2 ⟨utxos, reserves, hreceive, hreserves, rfl⟩⟩

/-- The pool has no deposit yet, and the legs are one that it asks for. -/
structure Asks (p : Pool) (legA legB : Utxo) : Prop where
  unfunded : p.utxos = .empty
  carried : ∃ leg ∈ [legA, legB], leg.runeId?.isSome = true
  token : ∀ leg ∈ [legA, legB], ∀ id, leg.runeId? = some id → id = p.token
  amount : legA.runeAmount.toNat + legB.runeAmount.toNat = p.depositAmount.toNat
  apart : legA.outpoint ≠ legB.outpoint
  sats : legA.sats.toNat + legB.sats.toNat < 2 ^ 64

/-- The pool after its first deposit, which owns exactly the legs. -/
structure Opens (p opened : Pool) (legA legB : Utxo) : Prop where
  outputs : ∀ o, opened.utxos.get? o =
    if legA.outpoint = o then some legA else if legB.outpoint = o then some legB else none
  native : opened.reserves.native.toNat = legA.sats.toNat + legB.sats.toNat
  token : (opened.reserves.amountOf p.token).toNat = legA.runeAmount.toNat + legB.runeAmount.toNat
  others : ∀ id, id ≠ .native → id ≠ p.token → opened.reserves.amountOf id = 0#128
  canonical : opened.reserves.Canonical
  projected : opened.utxos.reserves = .ok opened.reserves
  /-- Name, keys and terms stay as they are, and so does the nonce. -/
  kept : opened = { p with utxos := opened.utxos, reserves := opened.reserves }

/-! ### What two legs hold -/

section Legs

variable (htoken : p.token ≠ .native)
  (hlegs : ∀ leg ∈ [legA, legB], ∀ id, leg.runeId? = some id → id = p.token)

include htoken hlegs

lemma total_native_of_legs :
    Coin.total ([legA, legB].flatMap Utxo.coins) .native = legA.sats.toNat + legB.sats.toNat := by
  rw [UtxoSet.total_coins_native]
  · simp
  · intro leg hleg hnative
    exact htoken (hlegs leg hleg .native hnative).symm

lemma total_token_of_legs :
    Coin.total ([legA, legB].flatMap Utxo.coins) p.token =
      legA.runeAmount.toNat + legB.runeAmount.toNat := by
  have hleg : ∀ leg ∈ [legA, legB],
      (if leg.runeId? = some p.token then leg.runeAmount.toNat else 0) = leg.runeAmount.toNat := by
    intro leg hleg
    cases hrune : leg.rune with
    | none => simp [Utxo.runeId?, Utxo.runeAmount, hrune]
    | some coin =>
      have hid : leg.runeId? = some coin.id := by rw [Utxo.runeId?, hrune, Option.map_some]
      rw [if_pos (hid.trans (congrArg some (hlegs leg hleg coin.id hid)))]
  rw [UtxoSet.total_coins_rune _ htoken, List.map_congr_left hleg]
  simp

omit htoken in
lemma total_other_of_legs {id : CoinId} (hnative : id ≠ .native) (hid : id ≠ p.token) :
    Coin.total ([legA, legB].flatMap Utxo.coins) id = 0 := by
  have hleg : ∀ leg ∈ [legA, legB],
      (if leg.runeId? = some id then leg.runeAmount.toNat else 0) = 0 := by
    intro leg hleg
    exact if_neg fun hother => hid (hlegs leg hleg id hother)
  rw [UtxoSet.total_coins_rune _ hnative, List.map_congr_left hleg]
  rfl

/-- The sums of two legs fit where their native amounts and their rune amounts do. -/
lemma total_legs_le_limit_iff
    (hamount : legA.runeAmount.toNat + legB.runeAmount.toNat = p.depositAmount.toNat) :
    (∀ id, Coin.total ([legA, legB].flatMap Utxo.coins) id ≤ Reserves.limit id) ↔
      legA.sats.toNat + legB.sats.toNat < 2 ^ 64 := by
  have hsats : Coin.total ([legA, legB].flatMap Utxo.coins) .native ≤ Reserves.limit .native ↔
      legA.sats.toNat + legB.sats.toNat < 2 ^ 64 := by
    rw [total_native_of_legs htoken hlegs, Reserves.limit, if_pos rfl, Word.greatest,
      BitVec.toNat_allOnes]
    omega
  constructor
  · intro hfits
    exact hsats.1 (hfits .native)
  · intro hfits id
    by_cases hnative : id = .native
    · rw [hnative]
      exact hsats.2 hfits
    · by_cases hid : id = p.token
      · rw [hid, total_token_of_legs htoken hlegs, hamount, Reserves.limit, if_neg htoken]
        exact Word.toNat_le_greatest p.depositAmount
      · rw [total_other_of_legs hlegs hnative hid]
        exact Nat.zero_le _

end Legs

lemma Opens.of_fund (htoken : p.token ≠ .native) (hasks : p.Asks legA legB)
    (h : p.fund [legA, legB] = .ok next) : p.Opens next legA legB := by
  have hamounts := toNat_amountOf_fund (isFunded_eq_false_iff.2 hasks.unfunded) h
  obtain ⟨utxos, reserves, hreceive, hreserves, rfl⟩ := fund_eq_ok_iff.1 h
  obtain ⟨-, -, hget⟩ := UtxoSet.of_receive_eq_ok hreceive
  refine ⟨?_, ?_, ?_, ?_, UtxoSet.canonical_of_reserves hreserves, hreserves, rfl⟩
  · intro o
    dsimp only
    rw [hget, hasks.unfunded, UtxoSet.get?_empty, Option.or_none]
    by_cases hA : legA.outpoint = o <;> by_cases hB : legB.outpoint = o <;> simp [hA, hB]
  · rw [← Reserves.toNat_amountOf_native, hamounts]
    exact total_native_of_legs htoken hasks.token
  · rw [hamounts]
    exact total_token_of_legs htoken hasks.token
  · intro id hnative hid
    apply BitVec.eq_of_toNat_eq
    rw [hamounts]
    exact total_other_of_legs hasks.token hnative hid

end Pool

namespace Registry

variable {r r' : Registry} {p : Address} {legA legB : Utxo} {a b : CoinId}

/-- A deposit is admitted just when the pool asks for its legs. -/
lemma exists_deposit_iff (htoken : ∀ pool, r.get? p = some pool → pool.token ≠ .native) :
    (∃ r', r.deposit p legA legB = .ok r') ↔
      ∃ pool, r.get? p = some pool ∧ pool.Asks legA legB := by
  constructor
  · rintro ⟨r', hdeposit⟩
    obtain ⟨pool, funded, hpool, hunfunded, hrune, hamount, hfund, -⟩ :=
      deposit_eq_ok_iff.1 hdeposit
    obtain ⟨⟨leg, hleg, hid⟩, hlegs⟩ := depositedRune_eq_ok_iff.1 hrune
    have hempty := Pool.isFunded_eq_false_iff.1 hunfunded
    have hsum := (Quantity.add_eq_ok_iff.1 hamount).symm
    obtain ⟨hapart, hfits⟩ := (Pool.exists_fund_iff hempty).1 ⟨funded, hfund⟩
    refine ⟨pool, hpool, hempty, ⟨leg, hleg, Option.isSome_iff_exists.2 ⟨_, hid⟩⟩, hlegs, hsum, ?_,
      (Pool.total_legs_le_limit_iff (htoken pool hpool) hlegs hsum).1 hfits⟩
    simpa using hapart
  · rintro ⟨pool, hpool, hasks⟩
    obtain ⟨leg, hleg, hsome⟩ := hasks.carried
    obtain ⟨id, hid⟩ := Option.isSome_iff_exists.1 hsome
    have hrune : depositedRune legA legB = .ok pool.token := by
      refine depositedRune_eq_ok_iff.2 ⟨⟨leg, hleg, ?_⟩, hasks.token⟩
      rw [hid, hasks.token leg hleg id hid]
    have hapart : ([legA, legB].map (·.outpoint)).Nodup := by simpa using hasks.apart
    obtain ⟨funded, hfund⟩ := (Pool.exists_fund_iff hasks.unfunded).2 ⟨hapart,
      (Pool.total_legs_le_limit_iff (htoken pool hpool) hasks.token hasks.amount).2 hasks.sats⟩
    exact ⟨_, deposit_eq_ok_iff.2 ⟨pool, funded, hpool,
      Pool.isFunded_eq_false_iff.2 hasks.unfunded, hrune,
      Quantity.add_eq_ok_iff.2 hasks.amount.symm, hfund, rfl⟩⟩

lemma exists_opens_of_deposit (htoken : ∀ pool, r.get? p = some pool → pool.token ≠ .native)
    (h : r.deposit p legA legB = .ok r') :
    ∃ pool opened, r.get? p = some pool ∧ pool.Opens opened legA legB ∧
      r' = { r with pools := r.pools.insert p opened } := by
  obtain ⟨pool, hpool, hasks⟩ := (exists_deposit_iff htoken).1 ⟨r', h⟩
  obtain ⟨current, opened, hcurrent, -, -, -, hfund, hr'⟩ := deposit_eq_ok_iff.1 h
  obtain rfl : current = pool := Option.some.inj (hcurrent.symm.trans hpool)
  exact ⟨current, opened, hcurrent, .of_fund (htoken current hcurrent) hasks hfund, hr'⟩

/-! ### The order of the legs -/

/-- The legs of a deposit on a pool that is not funded carry two different runes. -/
structure Clash (r : Registry) (p : Address) (legA legB : Utxo) (a b : CoinId) : Prop where
  unfunded : ∃ pool, r.get? p = some pool ∧ pool.isFunded = false
  first : legA.runeId? = some a
  second : legB.runeId? = some b
  differ : a ≠ b

lemma Clash.symm (h : r.Clash p legA legB a b) : r.Clash p legB legA b a :=
  ⟨h.unfunded, h.second, h.first, h.differ.symm⟩

lemma Clash.deposit_eq (h : r.Clash p legA legB a b) :
    r.deposit p legA legB = .error (.runeMismatch a.text b.text) := by
  obtain ⟨pool, hpool, hunfunded⟩ := h.unfunded
  have hrune : depositedRune legA legB = .error (.runeMismatch a.text b.text) := by
    rw [depositedRune, h.first, h.second]
    exact if_neg h.differ
  simp [deposit, require, hpool, hunfunded, hrune, Outcome.ofOption, bind, Except.bind]

lemma depositedRune_comm (h : ∀ a b, legA.runeId? = some a → legB.runeId? = some b → a = b) :
    depositedRune legB legA = depositedRune legA legB := by
  unfold depositedRune
  cases hA : legA.runeId? with
  | none => cases legB.runeId? <;> rfl
  | some a =>
    cases hB : legB.runeId? with
    | none => rfl
    | some b =>
      obtain rfl := h a b hA hB
      rfl

/-- Legs that do not clash may come in either order. -/
lemma deposit_comm (h : ∀ a b, ¬r.Clash p legA legB a b) :
    r.deposit p legB legA = r.deposit p legA legB := by
  -- What is checked before the runes does not look at the legs.
  cases hpool : r.get? p with
  | none => simp only [deposit, require, hpool, Outcome.ofOption, bind, Except.bind]
  | some pool =>
    cases hfunded : pool.isFunded with
    | true =>
      simp only [deposit, require, hpool, hfunded, Outcome.ofOption, bind, Except.bind, if_true]
    | false =>
      have hsame : ∀ a b, legA.runeId? = some a → legB.runeId? = some b → a = b := by
        intro a b hA hB
        by_contra hdiffer
        exact h a b ⟨⟨pool, hpool, hfunded⟩, hA, hB, hdiffer⟩
      simp only [deposit, depositedRune_comm hsame, Quantity.add_comm legB.runeAmount,
        Pool.fund_perm (List.Perm.swap legA legB [])]

end Registry

lemma Settlement.perform_deposit_of_refused (s : Settlement) {p : Address} {legA legB : Utxo}
    {refusal : Refusal} (hrefused : s.registry.deposit p legA legB = .error refusal) :
    (s.perform (.deposit p legA legB)).2 = s := by
  simp only [perform, Call.act, Settlement.deposit, run_bind, run_get, run_ofOutcome, hrefused]
  cases s.checkIdle p <;> rfl

namespace Registry

/-- A registry admits exactly the deposits that its pools ask for. An admitted one leaves the pool
with the two legs and their sums, a refused one leaves everything as it is, and the legs may come in
either order, except that legs with different runes are named in the order they came in. -/
theorem deposit_admits (r : Registry) (p : Address) (legA legB : Utxo)
    (htoken : ∀ pool, r.get? p = some pool → pool.token ≠ .native) :
    ((∃ r', r.deposit p legA legB = .ok r') ↔
      ∃ pool, r.get? p = some pool ∧ pool.Asks legA legB) ∧
    (∀ r', r.deposit p legA legB = .ok r' →
      ∃ pool opened, r.get? p = some pool ∧ pool.Opens opened legA legB ∧
        r' = { r with pools := r.pools.insert p opened }) ∧
    (∀ s : Settlement, s.registry = r → ∀ refusal, r.deposit p legA legB = .error refusal →
      (s.perform (.deposit p legA legB)).2 = s) ∧
    (∀ a b, r.Clash p legA legB a b →
      r.deposit p legA legB = .error (.runeMismatch a.text b.text) ∧
        r.deposit p legB legA = .error (.runeMismatch b.text a.text)) ∧
    ((∀ a b, ¬r.Clash p legA legB a b) → r.deposit p legB legA = r.deposit p legA legB) := by
  refine ⟨exists_deposit_iff htoken, fun r' => exists_opens_of_deposit htoken, ?_, ?_, deposit_comm⟩
  · rintro s rfl refusal hrefused
    exact s.perform_deposit_of_refused hrefused
  · intro a b hclash
    exact ⟨hclash.deposit_eq, hclash.symm.deposit_eq⟩

theorem deposit_admits_sample :
    let s := (Settlement.create Settlement.Sample.rules (.create 0#64 0#128) 10).after
      (Settlement.Sample.staging.take 1)
    let legC := { Settlement.Sample.legB with rune := some ⟨.rune 840000#64 2#32, 1#128⟩ }
    (∃ pool opened r', s.registry.get? "pool" = some pool ∧
        pool.Opens opened Settlement.Sample.legB Settlement.Sample.legA ∧
        s.registry.deposit "pool" Settlement.Sample.legB Settlement.Sample.legA = .ok r' ∧
        s.registry.deposit "pool" Settlement.Sample.legA Settlement.Sample.legB = .ok r') ∧
      s.registry.deposit "pool" legC Settlement.Sample.legA =
        .error (.runeMismatch "840000:2" "840000:1") ∧
      (s.perform (.deposit "pool" legC Settlement.Sample.legA)).2 = s := by
  intro s legC
  obtain ⟨htokens, hadmitted, hunfunded, htexts⟩ :
      (s.registry.pools.entries.all fun e => decide (e.2.token ≠ .native)) ∧
        (s.registry.deposit "pool" Settlement.Sample.legB Settlement.Sample.legA).isOk ∧
        (s.registry.get? "pool").map Pool.isFunded = some false ∧
        ((CoinId.rune 840000#64 2#32).text = "840000:2" ∧
          Settlement.Sample.token.text = "840000:1") := by
    decide +kernel
  have htoken : ∀ pool, s.registry.get? "pool" = some pool → pool.token ≠ .native :=
    forall_of_all htokens "pool"
  obtain ⟨-, hopens, -, -, hswap⟩ := deposit_admits s.registry "pool" Settlement.Sample.legB
    Settlement.Sample.legA htoken
  obtain ⟨-, -, hrefused, hclash, -⟩ := deposit_admits s.registry "pool" legC
    Settlement.Sample.legA htoken
  have hmismatch : s.registry.deposit "pool" legC Settlement.Sample.legA =
      .error (.runeMismatch "840000:2" "840000:1") := by
    rw [← htexts.1, ← htexts.2]
    exact (hclash _ _ ⟨Option.map_eq_some_iff.1 hunfunded, rfl, rfl, by decide⟩).1
  obtain ⟨r', hr'⟩ := Outcome.exists_eq_ok_of_isOk hadmitted
  obtain ⟨pool, opened, hpool, hopened, -⟩ := hopens r' hr'
  refine ⟨⟨pool, opened, r', hpool, hopened, hr', ?_⟩, hmismatch, hrefused s rfl _ hmismatch⟩
  rw [hswap, hr']
  rintro a b ⟨-, hnone, -, -⟩
  cases hnone

end Registry

end RuneSettlement
