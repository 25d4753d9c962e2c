import RuneSettlement.Plan
import RuneSettlement.Proofs.Projection

/-!
# What a plan stages

The staged pool of a plan is the successor of the committed one: the nonce is one greater and
everything but outputs and reserves is the same. A plan depends on the registry only through the
pool that its intention names (`Rules.plan_congr`), and `Plan.Basis` says what an accepted plan
rests on.
-/

namespace RuneSettlement

namespace Pool

lemma checkReserves_eq_ok_iff {p : Pool} :
    p.checkReserves = .ok () ↔ p.utxos.reserves = .ok p.reserves := by
  rw [checkReserves, Outcome.bind_eq_ok_iff]
  constructor
  · rintro ⟨reserves, hreserves, hsame⟩
    split at hsame
    · next heq => rw [hreserves, heq]
    · cases hsame
  · intro h
    exact ⟨p.reserves, h, if_pos rfl⟩

/-- Pool `next` is `p` after one more transaction. -/
structure Succeeds (next p : Pool) : Prop where
  nonce : next.nonce.toNat = p.nonce.toNat + 1
  keys : next.keys = p.keys
  name : next.name = p.name
  token : next.token = p.token
  depositAmount : next.depositAmount = p.depositAmount
  attributes : next.attributes = p.attributes

lemma transition_eq_ok_iff {p next : Pool} {spends : List OutPoint} {receives : List Utxo}
    {post : Reserves} :
    p.transition spends receives post = .ok next ↔
      ∃ spent rest utxos nonce, p.utxos.spend spends = .ok (spent, rest) ∧
        rest.receive receives = .ok utxos ∧ nonce.toNat = p.nonce.toNat + 1 ∧
        next = { p with utxos, reserves := post, nonce } ∧ next.checkReserves = .ok () := by
  simp only [transition, Outcome.bind_eq_ok_iff, Outcome.pure_eq_ok_iff, Quantity.add_eq_ok_iff]
  constructor
  · rintro ⟨⟨spent, rest⟩, hspend, utxos, hreceive, nonce, hnonce, _, hcheck, rfl⟩
    exact ⟨spent, rest, utxos, nonce, hspend, hreceive, hnonce, rfl, hcheck⟩
  · rintro ⟨spent, rest, utxos, nonce, hspend, hreceive, hnonce, rfl, hcheck⟩
    exact ⟨(spent, rest), hspend, utxos, hreceive, nonce, hnonce, (), hcheck, rfl⟩

lemma stage_eq_ok_iff {p staged : Pool} {spends receives : List String} {post : Reserves} :
    p.stage spends receives post = .ok staged ↔
      ∃ spendIds receiveIds spent rest remaining outputs,
        OutPoint.parseAll spends = .ok spendIds ∧ OutPoint.parseAll receives = .ok receiveIds ∧
        p.utxos.spend spendIds = .ok (spent, rest) ∧ rest.reserves = .ok remaining ∧
        assignReceives receiveIds remaining post = .ok outputs ∧
        p.transition spendIds outputs post = .ok staged := by
  simp only [stage, Outcome.bind_eq_ok_iff]
  constructor
  · rintro ⟨spendIds, hs, receiveIds, hr, ⟨spent, rest⟩, hspend, remaining, hrem, outputs, ho, ht⟩
    exact ⟨spendIds, receiveIds, spent, rest, remaining, outputs, hs, hr, hspend, hrem, ho, ht⟩
  · rintro ⟨spendIds, receiveIds, spent, rest, remaining, outputs, hs, hr, hspend, hrem, ho, ht⟩
    exact ⟨spendIds, hs, receiveIds, hr, (spent, rest), hspend, remaining, hrem, outputs, ho, ht⟩

theorem succeeds_of_stage {p staged : Pool} {spends receives : List String} {post : Reserves}
    (h : p.stage spends receives post = .ok staged) : staged.Succeeds p := by
  obtain ⟨_, _, _, _, _, _, -, -, -, -, -, htransition⟩ := stage_eq_ok_iff.1 h
  obtain ⟨_, _, _, nonce, -, -, hnonce, rfl, -⟩ := transition_eq_ok_iff.1 htransition
  exact ⟨hnonce, rfl, rfl, rfl, rfl, rfl⟩

lemma reserves_of_stage {p staged : Pool} {spends receives : List String} {post : Reserves}
    (h : p.stage spends receives post = .ok staged) :
    staged.reserves = post ∧ staged.checkReserves = .ok () := by
  obtain ⟨_, _, _, _, _, _, -, -, -, -, -, htransition⟩ := stage_eq_ok_iff.1 h
  obtain ⟨_, _, _, _, -, -, -, rfl, hcheck⟩ := transition_eq_ok_iff.1 htransition
  exact ⟨rfl, hcheck⟩

end Pool

lemma Shortfall.runeId?_ne_of_fill {sats : Sats} {ids : List OutPoint} {coins : List Coin}
    {utxos : List Utxo} (h : fill sats ids coins = .ok utxos) :
    ∀ u ∈ utxos, u.runeId? ≠ some .native := by
  induction ids generalizing sats coins utxos with
  | nil =>
    cases h
    simp
  | cons id ids ih =>
    obtain ⟨htoken, rest, hrest, rfl⟩ := fill_cons_eq_ok_iff.1 h
    intro v hv
    rcases List.mem_cons.1 hv with rfl | hv
    · cases hcoin : coins.head? with
      | none => simp [Utxo.runeId?]
      | some coin => simpa [Utxo.runeId?] using htoken coin hcoin
    · exact ih hrest v hv

lemma runeId?_ne_of_assignReceives {ids : List OutPoint} {remaining post : Reserves}
    {utxos : List Utxo} (h : assignReceives ids remaining post = .ok utxos) :
    ∀ u ∈ utxos, u.runeId? ≠ some .native := by
  obtain ⟨shortfall, -, -, hfill⟩ := assignReceives_eq_ok_iff.1 h
  exact Shortfall.runeId?_ne_of_fill hfill

theorem Pool.sound_of_stage {p staged : Pool} {spends receives : List String} {post : Reserves}
    (hp : p.utxos.Sound) (h : p.stage spends receives post = .ok staged) : staged.utxos.Sound := by
  obtain ⟨_, _, _, _, _, outputs, -, -, -, -, houtputs, htransition⟩ := stage_eq_ok_iff.1 h
  obtain ⟨_, rest, utxos, _, hspend, hreceive, -, rfl, -⟩ := transition_eq_ok_iff.1 htransition
  have hrest := hp.spend hspend
  exact hrest.receive (runeId?_ne_of_assignReceives houtputs) hreceive

lemma Pool.afterFlows_eq_ok_iff {p : Pool} {inflow outflow post : Reserves} :
    p.afterFlows inflow outflow = .ok post ↔
      ∃ gross, p.reserves.merge inflow = .ok gross ∧ gross.debitAll outflow.coins = .ok post := by
  rw [afterFlows, Outcome.bind_eq_ok_iff]
  refine exists_congr fun gross => and_congr_right fun _ => ?_
  split
  · next hrefused => simp [hrefused]
  · rfl

/-- The reserves after the flows differ from those before by just these. -/
lemma Pool.toNat_amountOf_afterFlows {p : Pool} {inflow outflow post : Reserves}
    (hin : inflow.Canonical) (hout : outflow.Canonical)
    (h : p.afterFlows inflow outflow = .ok post) (id : CoinId) :
    (post.amountOf id).toNat + (outflow.amountOf id).toNat =
      (p.reserves.amountOf id).toNat + (inflow.amountOf id).toNat := by
  obtain ⟨gross, hgross, hdebit⟩ := afterFlows_eq_ok_iff.1 h
  rw [← Reserves.toNat_amountOf_merge hin hgross, ← Reserves.toNat_amountOf_debitAll hdebit,
    Reserves.total_coins hout]

/-- What an accepted plan rests on: the intention, the committed pool and the reserves after it. -/
structure Plan.Basis (plan : Plan) (rules : Rules) (registry : Registry) (set : IntentionSet)
    (index : BitVec 32) (i : Intention) (pool : Pool) (post : Reserves) : Prop where
  selected : set.select index = .ok i
  committed : registry.get? i.pool = some pool
  nonce : i.nonce = pool.nonce
  unfunded : pool.utxos.isEmpty = true → i.outputs = [] ∧ i.spends = []
  shape : i.hasShape rules set.initiator pool.token plan.action = true
  initiator : plan.initiator = set.initiator
  inflow : Reserves.empty.creditAll i.inputCoins = .ok plan.inflow
  outflow : Reserves.empty.creditAll i.outputCoins = .ok plan.outflow
  covered : pool.afterFlows plan.inflow plan.outflow = .ok post
  staged : pool.stage i.spends i.receives post = .ok plan.staged

namespace Intention

lemma checkCoin_eq_ok_iff {coin : Coin} :
    checkCoin coin = .ok () ↔ coin.id.inGenesisBlock = false ∧ coin.value ≠ 0#128 := by
  unfold checkCoin
  by_cases hgenesis : coin.id.inGenesisBlock = true
  · simp [hgenesis]
  · rw [if_neg hgenesis]
    by_cases hzero : coin.value = 0#128
    · simp [hzero]
    · simp [hzero, Bool.eq_false_iff.2 hgenesis]

lemma forM_checkCoin_eq_ok_iff {coins : List Coin} :
    forM coins checkCoin = .ok () ↔
      ∀ coin ∈ coins, coin.id.inGenesisBlock = false ∧ coin.value ≠ 0#128 := by
  induction coins with
  | nil => simp [pure, Except.pure]
  | cons coin coins ih =>
    rw [List.forM_cons, Outcome.bind_eq_ok_iff, List.forall_mem_cons, ← checkCoin_eq_ok_iff, ← ih]
    exact ⟨fun ⟨_, hfirst, hrest⟩ => ⟨hfirst, hrest⟩, fun ⟨hfirst, hrest⟩ => ⟨(), hfirst, hrest⟩⟩

end Intention

namespace Rules

variable {rules : Rules} {registry : Registry} {set : IntentionSet}

/-- What an intention is judged by before its coins are added up. -/
theorem judge_eq_ok_iff {initiator : Address} {i : Intention} {action : Action} {pool : Pool} :
    rules.judge registry initiator i = .ok (action, pool) ↔
      i.exchangeId = rules.exchangeId ∧ Action.parse i.action = .ok action ∧
        (∀ coin ∈ i.inputCoins ++ i.outputCoins,
          coin.id.inGenesisBlock = false ∧ coin.value ≠ 0#128) ∧
        registry.get? i.pool = some pool ∧ i.nonce = pool.nonce ∧
        (pool.utxos.isEmpty = true → i.outputs = [] ∧ i.spends = []) ∧
        i.hasShape rules initiator pool.token action = true := by
  simp only [judge, Outcome.unless_eq_ok_iff, Outcome.bind_eq_ok_iff, Outcome.pure_eq_ok_iff,
    Prod.mk.injEq, Registry.require, Outcome.ofOption_eq_ok_iff, not_ne_iff]
  constructor
  · rintro ⟨hexchange, _, haction, _, hcoins, _, hpool, hnonce, hunfunded, hshape, rfl, rfl⟩
    refine ⟨hexchange, haction, Intention.forM_checkCoin_eq_ok_iff.1 hcoins, hpool, hnonce, ?_,
      by simpa using hshape⟩
    intro hempty
    simpa [hempty] using hunfunded
  · rintro ⟨hexchange, haction, hcoins, hpool, hnonce, hunfunded, hshape⟩
    refine ⟨hexchange, action, haction, (), Intention.forM_checkCoin_eq_ok_iff.2 hcoins, pool,
      hpool, hnonce, ?_, by simpa using hshape, rfl, rfl⟩
    rintro ⟨hempty, hclaims⟩
    obtain ⟨houtputs, hspends⟩ := hunfunded hempty
    simp [houtputs, hspends] at hclaims

theorem exists_basis {index queueLength : BitVec 32} {plan : Plan}
    (h : rules.plan registry set index queueLength = .ok plan) :
    ∃ i pool post, plan.Basis rules registry set index i pool post := by
  unfold Rules.plan at h
  simp only [Outcome.bind_eq_ok_iff, Outcome.when_eq_ok_iff, Outcome.pure_eq_ok_iff] at h
  obtain ⟨i, hselect, ⟨action, pool⟩, hjudge, inflow, hinflow, outflow, houtflow, post, hpost,
    staged, hstaged, -, rfl⟩ := h
  obtain ⟨-, -, -, hpool, hnonce, hunfunded, hshape⟩ := judge_eq_ok_iff.1 hjudge
  exact ⟨i, pool, post, hselect, hpool, hnonce, hunfunded, hshape, rfl, hinflow, houtflow, hpost,
    hstaged⟩

theorem plan_congr {other : Registry} {index queueLength : BitVec 32}
    (h : ∀ i, set.select index = .ok i → registry.get? i.pool = other.get? i.pool) :
    rules.plan registry set index queueLength = rules.plan other set index queueLength := by
  unfold Rules.plan
  cases hselect : set.select index with
  | error refusal => rfl
  | ok i =>
    have hrequire : registry.require i.pool = other.require i.pool := by
      rw [Registry.require, Registry.require, h i hselect]
    have hjudge : rules.judge registry set.initiator i = rules.judge other set.initiator i := by
      rw [judge, judge, hrequire]
    change (rules.judge registry set.initiator i >>= _) = (rules.judge other set.initiator i >>= _)
    rw [hjudge]

end Rules

end RuneSettlement
