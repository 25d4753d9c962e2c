import RuneSettlement.Proofs.Payouts
import RuneSettlement.Proofs.Shortfalls

/-!
# Which intentions are accepted

Where the reserves of every pool are the projection of its outputs, an intention is planned just
when it is well formed, balanced and timely (`Rules.exists_plan_iff`). `Acceptable` says so in terms
of the claims of the intention and of what the pool holds; no later step of the plan refuses
anything more.
-/

namespace RuneSettlement

namespace UtxoSet

/-- The outputs of a set but for those at some outpoints. -/
def unspent (s : UtxoSet) (ids : List OutPoint) : List Utxo :=
  (s.outputs.entries.filter fun e => decide (e.1 ∉ ids)).map Prod.snd

variable {s rest : UtxoSet} {ids : List OutPoint} {utxos : List Utxo}

lemma toList_of_spend (h : s.spend ids = .ok (utxos, rest)) : rest.toList = s.unspent ids := by
  obtain ⟨-, -, hget⟩ := of_spend_eq_ok h
  have hentries : rest.outputs.entries =
      s.outputs.entries.filter fun e => decide (e.1 ∉ ids) := by
    apply SortedMap.eq_of_ascending rest.outputs.ascending (s.outputs.ascending.filter _)
    rintro ⟨o, u⟩
    have ho : rest.outputs.get? o = if o ∈ ids then none else s.outputs.get? o := hget o
    rw [← SortedMap.get?_eq_some_iff, ho, List.mem_filter, ← SortedMap.get?_eq_some_iff]
    by_cases hspent : o ∈ ids
    · simp [hspent]
    · simp [hspent]
  rw [toList, SortedMap.values, hentries, unspent]

/-- The outputs that pass a test hold no more than the whole set. -/
lemma total_filter_le (s : UtxoSet) (test : OutPoint × Utxo → Bool) (id : CoinId) :
    Coin.total (((s.outputs.entries.filter test).map Prod.snd).flatMap Utxo.coins) id ≤
      Coin.total s.coins id := by
  have hperm := (List.filter_append_perm test s.outputs.entries).map Prod.snd
  have htotal := Coin.total_perm (hperm.flatMap_right Utxo.coins) id
  rw [List.map_append, List.flatMap_append, Coin.total_append] at htotal
  exact Nat.le.intro htotal

/-- What is not spent holds no more than the whole set. -/
lemma total_unspent_le (s : UtxoSet) (ids : List OutPoint) (id : CoinId) :
    Coin.total ((s.unspent ids).flatMap Utxo.coins) id ≤ Coin.total s.coins id :=
  s.total_filter_le _ id

/-- Outputs that a set owns are spent if each is named once. -/
lemma exists_spend (hnodup : ids.Nodup) (howned : ∀ o ∈ ids, s.contains o = true) :
    ∃ utxos rest, s.spend ids = .ok (utxos, rest) := by
  induction ids generalizing s with
  | nil => exact ⟨[], s, rfl⟩
  | cons o ids ih =>
    obtain ⟨ho, hnodup⟩ := List.nodup_cons.1 hnodup
    obtain ⟨hfirst, hrest⟩ := List.forall_mem_cons.1 howned
    obtain ⟨u, hu⟩ := Option.isSome_iff_exists.1 hfirst
    have hkept : ∀ o' ∈ ids, contains ⟨s.outputs.erase o⟩ o' = true := by
      intro o' ho'
      rw [contains_eq, get?_erase, if_neg]
      · exact hrest o' ho'
      · rintro rfl
        exact ho ho'
    obtain ⟨utxos, rest, hspend⟩ := ih hnodup hkept
    simp only [spend, Outcome.bind_eq_ok_iff, Outcome.ofOption_eq_ok_iff, Outcome.pure_eq_ok_iff]
    exact ⟨u :: utxos, rest, u, hu, (utxos, rest), hspend, rfl⟩

/-- Outputs are received if their outpoints are free and all different. -/
lemma exists_receive (hnodup : (utxos.map (·.outpoint)).Nodup)
    (hfree : ∀ u ∈ utxos, s.get? u.outpoint = none) : ∃ s', s.receive utxos = .ok s' := by
  induction utxos generalizing s with
  | nil => exact ⟨s, rfl⟩
  | cons u utxos ih =>
    rw [List.map_cons, List.nodup_cons] at hnodup
    obtain ⟨hu, hnodup⟩ := hnodup
    obtain ⟨hfirst, hrest⟩ := List.forall_mem_cons.1 hfree
    have hcontains : s.contains u.outpoint = false := by
      rw [contains_eq, hfirst, Option.isSome_none]
    have hadd : s.add u = .ok ⟨s.outputs.insert u.outpoint u⟩ := by
      rw [add, if_neg (Bool.eq_false_iff.1 hcontains)]
    have hget := (add_eq_ok_iff.1 hadd).2
    obtain ⟨s', hs'⟩ : ∃ s', receive ⟨s.outputs.insert u.outpoint u⟩ utxos = .ok s' := by
      apply ih hnodup
      intro v hv
      rw [hget, if_neg]
      · exact hrest v hv
      · intro hsame
        exact hu (List.mem_map.2 ⟨v, hv, hsame.symm⟩)
    refine ⟨s', ?_⟩
    rw [receive_cons, hadd]
    exact hs'

/-- A set can be summed up if the sums fit. -/
lemma exists_reserves (h : ∀ id, Coin.total s.coins id ≤ Reserves.limit id) :
    ∃ r, s.reserves = .ok r := by
  rw [reserves_eq_creditAll]
  apply Reserves.exists_creditAll_eq_ok
  intro id
  rw [Reserves.amountOf_empty]
  simpa using h id

end UtxoSet

/-- Outputs that make up the shortfall leave the projection at the reserves they were made for. -/
lemma UtxoSet.reserves_of_receive {rest s' : UtxoSet} {ids : List OutPoint}
    {remaining post : Reserves} {outputs : List Utxo} (hpost : post.Canonical)
    (hremaining : rest.reserves = .ok remaining)
    (houtputs : assignReceives ids remaining post = .ok outputs)
    (hreceive : rest.receive outputs = .ok s') : s'.reserves = .ok post := by
  have htotal : ∀ id, Coin.total s'.coins id = (post.amountOf id).toNat := by
    intro id
    have hsum := total_of_assignReceives hpost houtputs id
    rw [toNat_amountOf_reserves hremaining] at hsum
    rw [coins, Coin.total_perm ((toList_perm_of_receive hreceive).flatMap_right Utxo.coins),
      List.flatMap_append, Coin.total_append, ← hsum, Nat.add_comm]
    rfl
  obtain ⟨r, hr⟩ : ∃ r, s'.reserves = .ok r := by
    apply exists_reserves
    intro id
    rw [htotal]
    exact post.toNat_amountOf_le_limit id
  have hsame : r = post := by
    apply Reserves.ext_amountOf (canonical_of_reserves hr) hpost
    intro id
    rw [toNat_amountOf_reserves hr, htotal]
  rw [hr, hsame]

namespace Pool

variable {p : Pool}

/-- What the outputs that are not spent hold of an asset. -/
def kept (p : Pool) (spends : List OutPoint) (id : CoinId) : Nat :=
  Coin.total ((p.utxos.unspent spends).flatMap Utxo.coins) id

lemma exists_remaining (hp : p.utxos.reserves = .ok p.reserves) {spends : List OutPoint}
    {spent : List Utxo} {rest : UtxoSet} (hspend : p.utxos.spend spends = .ok (spent, rest)) :
    ∃ remaining, rest.reserves = .ok remaining ∧
      ∀ id, (remaining.amountOf id).toNat = p.kept spends id := by
  have hcoins : ∀ id, Coin.total rest.coins id = p.kept spends id := by
    intro id
    rw [UtxoSet.coins, UtxoSet.toList_of_spend hspend, kept]
  obtain ⟨remaining, hremaining⟩ : ∃ remaining, rest.reserves = .ok remaining := by
    apply UtxoSet.exists_reserves
    intro id
    calc Coin.total rest.coins id = p.kept spends id := hcoins id
      _ ≤ Coin.total p.utxos.coins id := p.utxos.total_unspent_le spends id
      _ = (p.reserves.amountOf id).toNat := (UtxoSet.toNat_amountOf_reserves hp id).symm
      _ ≤ Reserves.limit id := p.reserves.toNat_amountOf_le_limit id
  refine ⟨remaining, hremaining, ?_⟩
  intro id
  rw [UtxoSet.toNat_amountOf_reserves hremaining, hcoins]

/-- The named outputs take a pool to some amounts: those spent are its own, those received are new
to it, and these are as many as make up what the amounts are beyond those that are kept. -/
structure Settles (p : Pool) (spends receives : List OutPoint) (post : CoinId → Nat) : Prop where
  spentOnce : spends.Nodup
  owned : ∀ o ∈ spends, p.utxos.contains o = true
  receivedOnce : receives.Nodup
  /-- What is spent may be received again. -/
  free : ∀ o ∈ receives, p.utxos.contains o = true → o ∈ spends
  covers : ∀ id, p.kept spends id ≤ post id
  count : Shortfall.Count (fun id => post id - p.kept spends id) receives.length

/-- A pool whose reserves are the projection of its outputs can be staged with canonical reserves
just when the named outputs take it there. -/
theorem exists_stage_iff (hp : p.utxos.reserves = .ok p.reserves) {spends receives : List String}
    {post : Reserves} (hpost : post.Canonical) :
    (∃ staged, p.stage spends receives post = .ok staged) ↔
      p.nonce.toNat < 2 ^ 64 - 1 ∧ ∃ spendIds receiveIds,
        OutPoint.parseAll spends = .ok spendIds ∧ OutPoint.parseAll receives = .ok receiveIds ∧
        p.Settles spendIds receiveIds fun id => (post.amountOf id).toNat := by
  constructor
  · rintro ⟨staged, h⟩
    obtain ⟨spendIds, receiveIds, spent, rest, remaining, outputs, hspends, hreceives, hspend,
      hremaining, houtputs, htransition⟩ := stage_eq_ok_iff.1 h
    obtain ⟨spent', rest', utxos, nonce, hspend', hreceive, hnonce, -, -⟩ :=
      transition_eq_ok_iff.1 htransition
    obtain ⟨rfl, rfl⟩ := Prod.mk.inj (Except.ok.inj (hspend.symm.trans hspend'))
    obtain ⟨remaining', hremaining', hkept⟩ := exists_remaining hp hspend
    obtain rfl := Except.ok.inj (hremaining.symm.trans hremaining')
    have hturnover := (UtxoSet.turnover_of_spend hspend).receive hreceive
    rw [outpoints_of_assignReceives houtputs] at hturnover
    obtain ⟨hcovers, hcount⟩ :=
      (exists_assignReceives_iff (UtxoSet.canonical_of_reserves hremaining) hpost).1 ⟨_, houtputs⟩
    simp only [hkept] at hcovers hcount
    have hfits := nonce.isLt
    exact ⟨by omega, spendIds, receiveIds, hspends, hreceives, hturnover.spentOnce,
      hturnover.owned, hturnover.receivedOnce, hturnover.unowned, hcovers, hcount⟩
  · rintro ⟨hnonce, spendIds, receiveIds, hspends, hreceives, hsettles⟩
    obtain ⟨spent, rest, hspend⟩ := UtxoSet.exists_spend hsettles.spentOnce hsettles.owned
    obtain ⟨remaining, hremaining, hkept⟩ := exists_remaining hp hspend
    obtain ⟨outputs, houtputs⟩ :
        ∃ outputs, assignReceives receiveIds remaining post = .ok outputs := by
      rw [exists_assignReceives_iff (UtxoSet.canonical_of_reserves hremaining) hpost]
      simp only [hkept]
      exact ⟨hsettles.covers, hsettles.count⟩
    have hids := outpoints_of_assignReceives houtputs
    obtain ⟨-, -, hrest⟩ := UtxoSet.of_spend_eq_ok hspend
    obtain ⟨utxos, hreceive⟩ : ∃ utxos, rest.receive outputs = .ok utxos := by
      apply UtxoSet.exists_receive
      · rw [hids]
        exact hsettles.receivedOnce
      · intro u hu
        have hmem : u.outpoint ∈ receiveIds := hids ▸ List.mem_map_of_mem hu
        rw [hrest]
        split
        · rfl
        · next hunspent =>
          have hunowned := mt (hsettles.free u.outpoint hmem) hunspent
          rwa [UtxoSet.contains_eq, Option.not_isSome_iff_eq_none] at hunowned
    obtain ⟨nonce, hnext⟩ : ∃ nonce : Nonce, nonce.toNat = p.nonce.toNat + 1 := by
      refine ⟨BitVec.ofNat 64 (p.nonce.toNat + 1), ?_⟩
      rw [BitVec.toNat_ofNat, Nat.mod_eq_of_lt (by omega)]
    refine ⟨{ p with utxos, reserves := post, nonce }, stage_eq_ok_iff.2 ⟨spendIds, receiveIds,
      spent, rest, remaining, outputs, hspends, hreceives, hspend, hremaining, houtputs,
      transition_eq_ok_iff.2 ⟨spent, rest, utxos, nonce, hspend, hreceive, hnext, rfl, ?_⟩⟩⟩
    exact checkReserves_eq_ok_iff.2
      (UtxoSet.reserves_of_receive hpost hremaining houtputs hreceive)

/-- Flows are applied where the reserves with what comes in fit and cover what goes out. -/
lemma exists_afterFlows_iff {inflow outflow : Reserves} (hin : inflow.Canonical)
    (hout : outflow.Canonical) :
    (∃ post, p.afterFlows inflow outflow = .ok post) ↔
      ∀ id, (p.reserves.amountOf id).toNat + (inflow.amountOf id).toNat ≤ Reserves.limit id ∧
        (outflow.amountOf id).toNat ≤
          (p.reserves.amountOf id).toNat + (inflow.amountOf id).toNat := by
  constructor
  · rintro ⟨post, h⟩ id
    have hafter := toNat_amountOf_afterFlows hin hout h id
    obtain ⟨gross, hgross, -⟩ := afterFlows_eq_ok_iff.1 h
    exact ⟨(Reserves.exists_merge_eq_ok_iff hin).1 ⟨gross, hgross⟩ id, by omega⟩
  · intro h
    obtain ⟨gross, hgross⟩ := (Reserves.exists_merge_eq_ok_iff hin).2 fun id => (h id).1
    obtain ⟨post, hpost⟩ : ∃ post, gross.debitAll outflow.coins = .ok post := by
      apply Reserves.exists_debitAll_eq_ok
      intro id
      rw [Reserves.total_coins hout, Reserves.toNat_amountOf_merge hin hgross]
      exact (h id).2
    exact ⟨post, afterFlows_eq_ok_iff.2 ⟨gross, hgross, hpost⟩⟩

lemma canonical_of_afterFlows {inflow outflow post : Reserves} (hp : p.reserves.Canonical)
    (h : p.afterFlows inflow outflow = .ok post) : post.Canonical := by
  obtain ⟨gross, hgross, hdebit⟩ := afterFlows_eq_ok_iff.1 h
  exact (hp.merge hgross).debitAll hdebit

end Pool

namespace Reserves

variable {r : Reserves} {coins : List Coin}

lemma Canonical.of_creditAll (h : empty.creditAll coins = .ok r) : r.Canonical :=
  canonical_empty.creditAll h

/-- Coins that are added up from nothing come to their total. -/
lemma toNat_amountOf_of_creditAll (h : empty.creditAll coins = .ok r) (id : CoinId) :
    (r.amountOf id).toNat = Coin.total coins id := by
  rw [toNat_amountOf_creditAll h, amountOf_empty]
  exact Nat.zero_add _

lemma exists_creditAll_empty_iff :
    (∃ r, empty.creditAll coins = .ok r) ↔ ∀ id, Coin.total coins id ≤ limit id := by
  constructor
  · rintro ⟨r, h⟩ id
    rw [← toNat_amountOf_of_creditAll h]
    exact r.toNat_amountOf_le_limit id
  · intro h
    apply exists_creditAll_eq_ok
    intro id
    rw [amountOf_empty]
    simpa using h id

end Reserves

lemma FeeFloor.check_eq_ok_iff {floor : FeeFloor} {value : Sats} {queueLength : BitVec 32} :
    floor.check value queueLength = .ok () ↔ (floor.minimal queueLength).toNat ≤ value.toNat := by
  unfold check
  split
  · next hbelow =>
    simp only [reduceCtorEq, false_iff]
    omega
  · next hnot =>
    simp only [true_iff]
    omega

lemma Action.parse_eq_ok_iff {text : String} {action : Action} :
    parse text = .ok action ↔ text = action.text := by
  rw [parse, Outcome.ofOption_eq_ok_iff]
  constructor
  · intro h
    have hfound := List.find?_some h
    exact (of_decide_eq_true hfound).symm
  · rintro rfl
    cases action <;> decide

namespace Intention

variable {i : Intention} {rules : Rules} {initiator : Address} {token : CoinId} {action : Action}

/-- What the coins of an intention must be for its action on a pool of some token. -/
def Fits (i : Intention) (rules : Rules) (initiator : Address) (token : CoinId) : Action → Prop
  | .swap => i.inputs ≠ [] ∧ i.outputs ≠ []
  | .addLiquidity => i.inputs ≠ [] ∧ i.outputs = []
  | .register =>
    token = rules.rewardToken ∧ i.inputs = [⟨initiator, Coin.native rules.registerFee⟩] ∧
      i.outputs = []
  | .withdraw =>
    token = rules.rewardToken ∧ i.inputs = [] ∧
      ∃ value, i.outputs = [⟨initiator, ⟨rules.rewardToken, value⟩⟩]

lemma hasShape_iff_fits :
    i.hasShape rules initiator token action = true ↔ i.Fits rules initiator token action := by
  cases action with
  | swap => simp [hasShape, Fits]
  | addLiquidity => simp [hasShape, Fits]
  | register =>
    rw [hasShape, decide_eq_true_iff, Fits]
    exact and_congr_right fun _ => and_comm
  | withdraw => exact hasShape_withdraw_iff

/-- The greater of the native amounts that come in and go out. -/
def nativeValue (i : Intention) : Nat :=
  max (Coin.total i.inputCoins .native) (Coin.total i.outputCoins .native)

end Intention

/-- An intention with an action, on a pool, that spends and receives some outputs, is well formed,
balanced and timely. -/
structure Acceptable (rules : Rules) (registry : Registry) (initiator : Address)
    (queueLength : BitVec 32) (i : Intention) (action : Action) (pool : Pool)
    (spends receives : List OutPoint) : Prop where
  exchange : i.exchangeId = rules.exchangeId
  named : i.action = action.text
  coins : ∀ coin ∈ i.inputCoins ++ i.outputCoins,
    coin.id.inGenesisBlock = false ∧ coin.value ≠ 0#128
  registered : registry.get? i.pool = some pool
  nonce : i.nonce = pool.nonce
  nonceLeft : i.nonce.toNat < 2 ^ 64 - 1
  unfunded : pool.utxos.isEmpty = true → i.outputs = [] ∧ i.spends = []
  shape : i.Fits rules initiator pool.token action
  inputsFit : ∀ id, Coin.total i.inputCoins id ≤ Reserves.limit id
  outputsFit : ∀ id, Coin.total i.outputCoins id ≤ Reserves.limit id
  grossFits : ∀ id,
    (pool.reserves.amountOf id).toNat + Coin.total i.inputCoins id ≤ Reserves.limit id
  covered : ∀ id, Coin.total i.outputCoins id ≤
    (pool.reserves.amountOf id).toNat + Coin.total i.inputCoins id
  spent : OutPoint.parseAll i.spends = .ok spends
  received : OutPoint.parseAll i.receives = .ok receives
  /-- The outputs take the pool to its reserves, with what comes in and without what goes out. -/
  settles : pool.Settles spends receives fun id =>
    (pool.reserves.amountOf id).toNat + Coin.total i.inputCoins id - Coin.total i.outputCoins id
  floor : i.nativeValue = 0 ∨ (rules.floor.minimal queueLength).toNat ≤ i.nativeValue

/-- The flows of an intention take a pool to its reserves, with what comes in and without what goes
out. -/
lemma Pool.amounts_of_afterFlows {p : Pool} {i : Intention} {inflow outflow post : Reserves}
    (hinflow : Reserves.empty.creditAll i.inputCoins = .ok inflow)
    (houtflow : Reserves.empty.creditAll i.outputCoins = .ok outflow)
    (hpost : p.afterFlows inflow outflow = .ok post) :
    (fun id => (post.amountOf id).toNat) = fun id =>
      (p.reserves.amountOf id).toNat + Coin.total i.inputCoins id -
        Coin.total i.outputCoins id := by
  funext id
  have hafter := toNat_amountOf_afterFlows (Reserves.Canonical.of_creditAll hinflow)
    (Reserves.Canonical.of_creditAll houtflow) hpost id
  rw [Reserves.toNat_amountOf_of_creditAll hinflow,
    Reserves.toNat_amountOf_of_creditAll houtflow] at hafter
  omega

namespace Rules

variable {rules : Rules} {registry : Registry} {set : IntentionSet} {index queueLength : BitVec 32}

/-- The steps of a plan that may refuse. -/
lemma exists_plan_iff_steps :
    (∃ plan, rules.plan registry set index queueLength = .ok plan) ↔
      ∃ i action pool inflow outflow post, set.select index = .ok i ∧
        rules.judge registry set.initiator i = .ok (action, pool) ∧
        Reserves.empty.creditAll i.inputCoins = .ok inflow ∧
        Reserves.empty.creditAll i.outputCoins = .ok outflow ∧
        pool.afterFlows inflow outflow = .ok post ∧
        (∃ staged, pool.stage i.spends i.receives post = .ok staged) ∧
        (i.nativeValue = 0 ∨ (rules.floor.minimal queueLength).toNat ≤ i.nativeValue) := by
  have hvalue : ∀ {i : Intention} {inflow outflow : Reserves},
      Reserves.empty.creditAll i.inputCoins = .ok inflow →
      Reserves.empty.creditAll i.outputCoins = .ok outflow →
      (if inflow.native.toNat < outflow.native.toNat then outflow.native
        else inflow.native).toNat = i.nativeValue := by
    intro i inflow outflow hinflow houtflow
    rw [Intention.nativeValue, ← Reserves.toNat_amountOf_of_creditAll hinflow,
      ← Reserves.toNat_amountOf_of_creditAll houtflow, Reserves.toNat_amountOf_native,
      Reserves.toNat_amountOf_native]
    split <;> omega
  have hfloor : ∀ value : Sats,
      (value ≠ 0#64 → rules.floor.check value queueLength = .ok ()) ↔
        (value.toNat = 0 ∨ (rules.floor.minimal queueLength).toNat ≤ value.toNat) := by
    intro value
    have hzero : value = 0#64 ↔ value.toNat = 0 := BitVec.toNat_inj.symm
    rw [FeeFloor.check_eq_ok_iff, ne_eq, hzero, or_iff_not_imp_left]
  simp only [plan, Outcome.bind_eq_ok_iff, Outcome.when_eq_ok_iff, Outcome.pure_eq_ok_iff, hfloor]
  constructor
  · rintro ⟨_, i, hselect, ⟨action, pool⟩, hjudge, inflow, hinflow, outflow, houtflow, post, hpost,
      staged, hstaged, hchecked, -⟩
    rw [hvalue hinflow houtflow] at hchecked
    exact ⟨i, action, pool, inflow, outflow, post, hselect, hjudge, hinflow, houtflow, hpost,
      ⟨staged, hstaged⟩, hchecked⟩
  · rintro ⟨i, action, pool, inflow, outflow, post, hselect, hjudge, hinflow, houtflow, hpost,
      ⟨staged, hstaged⟩, hchecked⟩
    rw [← hvalue hinflow houtflow] at hchecked
    exact ⟨_, i, hselect, (action, pool), hjudge, inflow, hinflow, outflow, houtflow, post, hpost,
      staged, hstaged, hchecked, rfl⟩

/-- Where the reserves of every pool are the projection of its outputs, exactly the acceptable
intentions are planned. -/
theorem exists_plan_iff
    (hregistry : ∀ p pool, registry.get? p = some pool →
      pool.utxos.reserves = .ok pool.reserves) :
    (∃ plan, rules.plan registry set index queueLength = .ok plan) ↔
      ∃ i action pool spends receives, set.intentions[index.toNat]? = some i ∧
        Acceptable rules registry set.initiator queueLength i action pool spends receives := by
  rw [exists_plan_iff_steps]
  constructor
  · rintro ⟨i, action, pool, inflow, outflow, post, hselect, hjudge, hinflow, houtflow, hpost,
      hstaged, hfloor⟩
    obtain ⟨hexchange, haction, hcoins, hpool, hnonce, hunfunded, hshape⟩ :=
      judge_eq_ok_iff.1 hjudge
    have hprojected := hregistry i.pool pool hpool
    have hin := Reserves.Canonical.of_creditAll hinflow
    have hout := Reserves.Canonical.of_creditAll houtflow
    have hcanonical : post.Canonical :=
      Pool.canonical_of_afterFlows (UtxoSet.canonical_of_reserves hprojected) hpost
    have hflows := (Pool.exists_afterFlows_iff hin hout).1 ⟨post, hpost⟩
    obtain ⟨hleft, spends, receives, hspends, hreceives, hsettles⟩ :=
      (Pool.exists_stage_iff hprojected hcanonical).1 hstaged
    simp only [Reserves.toNat_amountOf_of_creditAll hinflow,
      Reserves.toNat_amountOf_of_creditAll houtflow] at hflows
    rw [Pool.amounts_of_afterFlows hinflow houtflow hpost] at hsettles
    refine ⟨i, action, pool, spends, receives, Outcome.ofOption_eq_ok_iff.1 hselect, hexchange,
      Action.parse_eq_ok_iff.1 haction, hcoins, hpool, hnonce, hnonce ▸ hleft, hunfunded,
      Intention.hasShape_iff_fits.1 hshape, ?_, ?_, fun id => (hflows id).1,
      fun id => (hflows id).2, hspends, hreceives, hsettles, hfloor⟩
    · exact Reserves.exists_creditAll_empty_iff.1 ⟨inflow, hinflow⟩
    · exact Reserves.exists_creditAll_empty_iff.1 ⟨outflow, houtflow⟩
  · rintro ⟨i, action, pool, spends, receives, hselect, h⟩
    have hprojected := hregistry i.pool pool h.registered
    obtain ⟨inflow, hinflow⟩ := Reserves.exists_creditAll_empty_iff.2 h.inputsFit
    obtain ⟨outflow, houtflow⟩ := Reserves.exists_creditAll_empty_iff.2 h.outputsFit
    have hin := Reserves.Canonical.of_creditAll hinflow
    have hout := Reserves.Canonical.of_creditAll houtflow
    obtain ⟨post, hpost⟩ : ∃ post, pool.afterFlows inflow outflow = .ok post := by
      rw [Pool.exists_afterFlows_iff hin hout]
      intro id
      rw [Reserves.toNat_amountOf_of_creditAll hinflow,
        Reserves.toNat_amountOf_of_creditAll houtflow]
      exact ⟨h.grossFits id, h.covered id⟩
    have hcanonical : post.Canonical :=
      Pool.canonical_of_afterFlows (UtxoSet.canonical_of_reserves hprojected) hpost
    have hjudge := judge_eq_ok_iff.2 ⟨h.exchange, Action.parse_eq_ok_iff.2 h.named, h.coins,
      h.registered, h.nonce, h.unfunded, Intention.hasShape_iff_fits.2 h.shape⟩
    have hstaged : ∃ staged, pool.stage i.spends i.receives post = .ok staged := by
      rw [Pool.exists_stage_iff hprojected hcanonical,
        Pool.amounts_of_afterFlows hinflow houtflow hpost]
      exact ⟨h.nonce ▸ h.nonceLeft, spends, receives, h.spent, h.received, h.settles⟩
    exact ⟨i, action, pool, inflow, outflow, post, Outcome.ofOption_eq_ok_iff.2 hselect, hjudge,
      hinflow, houtflow, hpost, hstaged, h.floor⟩

theorem exists_plan_iff_sample :
    let s := (Settlement.create Settlement.Sample.rules (.create 0#64 0#128) 10).after
      (Settlement.Sample.staging.take 2)
    ∃ action pool spends receives,
      Acceptable Settlement.Sample.rules s.registry "trader" 0#32 Settlement.Sample.swap action
        pool spends receives := by
  intro s
  obtain ⟨hprojected, hplanned⟩ :
      (s.registry.pools.entries.all fun e => decide (e.2.utxos.reserves = .ok e.2.reserves)) ∧
        (Settlement.Sample.rules.plan s.registry ⟨"trader", [Settlement.Sample.swap]⟩ 0#32
          0#32).toBool = true := by
    decide +kernel
  have hregistry : ∀ p pool, s.registry.get? p = some pool →
      pool.utxos.reserves = .ok pool.reserves := by
    intro p pool hpool
    exact of_decide_eq_true
      (List.all_eq_true.1 hprojected _ (SortedMap.get?_eq_some_iff.1 hpool))
  cases hplan : Settlement.Sample.rules.plan s.registry
      ⟨"trader", [Settlement.Sample.swap]⟩ 0#32 0#32 with
  | error refusal =>
    rw [hplan] at hplanned
    cases hplanned
  | ok plan =>
    obtain ⟨i, action, pool, spends, receives, hselect, hacceptable⟩ :=
      (exists_plan_iff hregistry).1 ⟨plan, hplan⟩
    cases hselect
    exact ⟨action, pool, spends, receives, hacceptable⟩

end Rules

end RuneSettlement
