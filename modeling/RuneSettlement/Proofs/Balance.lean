import RuneSettlement.Proofs.Acceptance

/-!
# Plans balance at the level of outputs

Reserves are sums, so a plan whose reserves balance could still take from one output what it does
not put into another. It does not: where the reserves of every pool are the projection of its
outputs, what a plan spends and what flows in is worth what it creates and what flows out, in every
asset, and it leaves all other outputs of the pool alone (`Rules.balances_of_plan`).
-/

namespace RuneSettlement

namespace UtxoSet

variable {s rest : UtxoSet} {ids : List OutPoint} {utxos : List Utxo}

/-- A set holds what is spent from it and what is left. -/
lemma toList_perm_of_spend (h : s.spend ids = .ok (utxos, rest)) :
    s.toList.Perm (utxos ++ rest.toList) := by
  induction ids generalizing s utxos with
  | nil =>
    cases h
    exact .refl _
  | cons id ids ih =>
    simp only [spend, Outcome.bind_eq_ok_iff, Outcome.ofOption_eq_ok_iff, Outcome.pure_eq_ok_iff]
      at h
    obtain ⟨u, hu, ⟨others, r⟩, hothers, h⟩ := h
    cases h
    have hfirst : s.toList.Perm (u :: toList ⟨s.outputs.erase id⟩) :=
      (SortedMap.perm_entries_erase hu).map Prod.snd
    exact hfirst.trans ((ih hothers).cons u)

lemma total_coins_of_spend (h : s.spend ids = .ok (utxos, rest)) (id : CoinId) :
    Coin.total s.coins id =
      Coin.total (utxos.flatMap Utxo.coins) id + Coin.total rest.coins id := by
  have hperm := (toList_perm_of_spend h).flatMap_right Utxo.coins
  rw [coins, Coin.total_perm hperm, List.flatMap_append, Coin.total_append]
  rfl

end UtxoSet

namespace Reserves

variable {r : Reserves} {coins : List Coin} {id : CoinId}

/-- The tokens of canonical reserves are those that they have an amount of. -/
lemma Canonical.mem_keys_iff (hr : r.Canonical) :
    id ∈ r.tokens.keys ↔ id ≠ .native ∧ (r.amountOf id).toNat ≠ 0 := by
  constructor
  · intro hmem
    have hid := hr.ne_native_of_mem_keys hmem
    obtain ⟨e, he, rfl⟩ := List.mem_map.1 hmem
    have hget := SortedMap.get?_eq_some_iff.2 he
    refine ⟨hid, ?_⟩
    rw [amountOf, if_neg hid, hget, Option.getD_some]
    exact fun hzero => (hr e.1 e.2 hget).2 (BitVec.eq_of_toNat_eq hzero)
  · rintro ⟨hid, hamount⟩
    cases hget : r.tokens.get? id with
    | some amount => exact List.mem_map.2 ⟨_, SortedMap.get?_eq_some_iff.1 hget, rfl⟩
    | none =>
      rw [amountOf, if_neg hid, hget] at hamount
      exact absurd rfl hamount

/-- Coins of some value each that are added up from nothing have all their tokens listed. -/
lemma mem_keys_of_creditAll (h : empty.creditAll coins = .ok r)
    (hcoins : ∀ coin ∈ coins, coin.value ≠ 0#128) :
    id ∈ r.tokens.keys ↔ id ≠ .native ∧ ∃ coin ∈ coins, coin.id = id := by
  rw [(Canonical.of_creditAll h).mem_keys_iff, toNat_amountOf_of_creditAll h,
    ne_eq (Coin.total _ _), Coin.total_eq_zero_iff]
  refine and_congr_right fun _ => ?_
  constructor
  · intro hsome
    by_contra hnone
    apply hsome
    intro coin hcoin hid
    exact absurd ⟨coin, hcoin, hid⟩ hnone
  · rintro ⟨coin, hcoin, hid⟩ hall
    exact hcoins coin hcoin (hall coin hcoin hid)

end Reserves

/-- An output holds something, and a rune that it carries is no native coin and has an amount. -/
structure Utxo.Laden (u : Utxo) : Prop where
  some : u.sats ≠ 0#64 ∨ u.rune.isSome = true
  rune : ∀ coin, u.rune = .some coin → coin.id ≠ .native ∧ coin.value ≠ 0#128

namespace Shortfall

variable {sats : Sats} {ids : List OutPoint} {tokens : List Coin} {utxos : List Utxo}

lemma mem_of_fill (h : fill sats ids tokens = .ok utxos) {u : Utxo} (hu : u ∈ utxos) {coin : Coin}
    (hcoin : u.rune = some coin) : coin ∈ tokens := by
  induction ids generalizing sats tokens utxos with
  | nil =>
    cases h
    cases hu
  | cons o ids ih =>
    obtain ⟨-, others, hothers, rfl⟩ := fill_cons_eq_ok_iff.1 h
    rcases List.mem_cons.1 hu with rfl | hu
    · exact List.mem_of_mem_head? hcoin
    · exact List.mem_of_mem_tail (ih hothers hu)

/-- Outputs that are no more than the coins have one each. -/
lemma isSome_rune_of_fill (h : fill sats ids tokens = .ok utxos)
    (hlength : ids.length ≤ tokens.length) {u : Utxo} (hu : u ∈ utxos) : u.rune.isSome = true := by
  induction ids generalizing sats tokens utxos with
  | nil =>
    cases h
    cases hu
  | cons o ids ih =>
    obtain ⟨-, others, hothers, rfl⟩ := fill_cons_eq_ok_iff.1 h
    cases tokens with
    | nil => cases hlength
    | cons coin tokens =>
      rcases List.mem_cons.1 hu with rfl | hu
      · rfl
      · exact ih hothers (Nat.le_of_succ_le_succ hlength) hu

/-- As many outputs as a shortfall asks for all hold something. -/
lemma Exact.laden_of_fill {s : Shortfall} {remaining post : Reserves} (hs : s.Exact remaining post)
    (hpost : post.Canonical) (hcount : ids.length = s.outputCount)
    (h : fill s.native ids s.tokens = .ok utxos) : ∀ u ∈ utxos, u.Laden := by
  intro u hu
  refine ⟨?_, ?_⟩
  · by_cases htokens : s.tokens = []
    · -- Without a short token there is one output at most, and it takes the native shortfall.
      by_cases hnative : s.native = 0#64
      · rw [outputCount, if_pos ⟨hnative, htokens⟩] at hcount
        obtain rfl := List.length_eq_zero_iff.1 hcount
        cases h
        cases hu
      · rw [outputCount, if_neg (fun hboth => hnative hboth.1), htokens] at hcount
        obtain ⟨o, rfl⟩ := List.length_eq_one_iff.1 hcount
        obtain ⟨-, others, hothers, rfl⟩ := fill_cons_eq_ok_iff.1 h
        cases hothers
        rw [List.mem_singleton.1 hu]
        exact .inl hnative
    · have hpositive : 1 ≤ s.tokens.length := List.length_pos_of_ne_nil htokens
      rw [outputCount, if_neg (fun hboth => htokens hboth.2), Nat.max_eq_right hpositive] at hcount
      exact .inr (isSome_rune_of_fill h hcount.le hu)
  · intro coin hcoin
    have hmem := mem_of_fill h hu hcoin
    exact ⟨hs.ne_native hpost hmem, hs.positive coin hmem⟩

end Shortfall

namespace Pool

variable {p staged : Pool}

/-- What staging a pool does to its outputs: those at `spends` are taken out, `created` come in at
`receives`, and the reserves grow by what these hold beyond those spent. -/
structure Restocks (p staged : Pool) (spends receives : List OutPoint)
    (spent created : List Utxo) : Prop where
  spentOnce : spends.Nodup
  found : spends.map p.utxos.get? = spent.map some
  receivedOnce : receives.Nodup
  placed : created.map (·.outpoint) = receives
  /-- What is received is new to the pool, unless it is spent. -/
  free : ∀ o ∈ receives, p.utxos.contains o = true → o ∈ spends
  outputs : ∀ o, staged.utxos.get? o =
    (created.find? fun u => decide (u.outpoint = o)).or
      (if o ∈ spends then none else p.utxos.get? o)
  laden : ∀ u ∈ created, u.Laden
  worth : ∀ id, (p.reserves.amountOf id).toNat + Coin.total (created.flatMap Utxo.coins) id =
    (staged.reserves.amountOf id).toNat + Coin.total (spent.flatMap Utxo.coins) id

theorem restocks_of_stage (hp : p.utxos.reserves = .ok p.reserves) {spends receives : List String}
    {post : Reserves} (hpost : post.Canonical) (h : p.stage spends receives post = .ok staged) :
    ∃ spendIds receiveIds spent created, OutPoint.parseAll spends = .ok spendIds ∧
      OutPoint.parseAll receives = .ok receiveIds ∧
      p.Restocks staged spendIds receiveIds spent created := by
  obtain ⟨spendIds, receiveIds, spent, rest, remaining, created, hspends, hreceives, hspend,
    hremaining, hcreated, htransition⟩ := stage_eq_ok_iff.1 h
  obtain ⟨spent', rest', utxos, nonce, hspend', hreceive, -, rfl, -⟩ :=
    transition_eq_ok_iff.1 htransition
  obtain ⟨rfl, rfl⟩ := Prod.mk.inj (Except.ok.inj (hspend.symm.trans hspend'))
  obtain ⟨hspentOnce, hspent, hrest⟩ := UtxoSet.of_spend_eq_ok hspend
  obtain ⟨-, -, hutxos⟩ := UtxoSet.of_receive_eq_ok hreceive
  obtain ⟨s, hbetween, hcount, hfill⟩ := assignReceives_eq_ok_iff.1 hcreated
  have hs := Shortfall.exact_of_between hpost hbetween
  have hids := outpoints_of_assignReceives hcreated
  have hturnover := (UtxoSet.turnover_of_spend hspend).receive hreceive
  rw [hids] at hturnover
  refine ⟨spendIds, receiveIds, spent, created, hspends, hreceives, hspentOnce, hspent,
    hturnover.receivedOnce, hids, hturnover.unowned, ?_, hs.laden_of_fill hpost hcount hfill, ?_⟩
  · intro o
    rw [hutxos, hrest]
  · intro id
    have hbefore := UtxoSet.total_coins_of_spend hspend id
    have hafter := total_of_assignReceives hpost hcreated id
    rw [← UtxoSet.toNat_amountOf_reserves hp] at hbefore
    rw [UtxoSet.toNat_amountOf_reserves hremaining] at hafter
    dsimp only
    omega

end Pool

/-- How a plan settles an intention on a pool by its outputs. -/
structure Plan.Balances (plan : Plan) (i : Intention) (pool : Pool)
    (spends receives : List OutPoint) (spent created : List Utxo) : Prop where
  inflow : ∀ id, (plan.inflow.amountOf id).toNat = Coin.total i.inputCoins id
  outflow : ∀ id, (plan.outflow.amountOf id).toNat = Coin.total i.outputCoins id
  restocks : pool.Restocks plan.staged spends receives spent created
  outputs : ∀ id,
    Coin.total (spent.flatMap Utxo.coins) id + (plan.inflow.amountOf id).toNat =
      Coin.total (created.flatMap Utxo.coins) id + (plan.outflow.amountOf id).toNat
  reserves : ∀ id, (pool.reserves.amountOf id).toNat + (plan.inflow.amountOf id).toNat =
    (plan.staged.reserves.amountOf id).toNat + (plan.outflow.amountOf id).toNat
  succeeds : plan.staged.Succeeds pool
  unknownOnce : plan.unknownTokens.Nodup
  unknown : ∀ id, id ∈ plan.unknownTokens ↔ id ≠ .native ∧ (∃ coin ∈ i.inputCoins, coin.id = id) ∧
    id ≠ pool.token ∧ pool.reserves.amountOf id = 0#128

namespace Settlement.Sample

/-- A token that the pool neither trades nor holds. -/
def stray : CoinId := .rune 840000#64 2#32

/-- A swap that also brings in a stray token, for which it asks for a second output. -/
def mixed : Intention :=
  { swap with
    receives := [(OutPoint.mk (txid 2) 0#32).text, (OutPoint.mk (txid 2) 1#32).text]
    inputs := [⟨"trader", Coin.native 50#64⟩, ⟨"trader", ⟨stray, 7#128⟩⟩] }

end Settlement.Sample

namespace Rules

variable {rules : Rules} {registry : Registry} {set : IntentionSet} {index queueLength : BitVec 32}
  {plan : Plan}

/-- What a plan is made of. -/
lemma plan_eq_ok_iff :
    rules.plan registry set index queueLength = .ok plan ↔
      ∃ i pool post, set.select index = .ok i ∧
        rules.judge registry set.initiator i = .ok (plan.action, pool) ∧
        Reserves.empty.creditAll i.inputCoins = .ok plan.inflow ∧
        Reserves.empty.creditAll i.outputCoins = .ok plan.outflow ∧
        pool.afterFlows plan.inflow plan.outflow = .ok post ∧
        pool.stage i.spends i.receives post = .ok plan.staged ∧
        (plan.nativeValue ≠ 0#64 → rules.floor.check plan.nativeValue queueLength = .ok ()) ∧
        plan.initiator = set.initiator ∧
        plan.unknownTokens = (plan.inflow.tokens.keys.filter fun id =>
          decide (id ≠ pool.token ∧ pool.reserves.amountOf id = 0#128)) ∧
        plan.nativeValue = if plan.inflow.native.toNat < plan.outflow.native.toNat then
          plan.outflow.native else plan.inflow.native := by
  simp only [Rules.plan, Outcome.bind_eq_ok_iff, Outcome.when_eq_ok_iff, Outcome.pure_eq_ok_iff]
  constructor
  · rintro ⟨i, hselect, ⟨action, pool⟩, hjudge, inflow, hinflow, outflow, houtflow, post, hpost,
      staged, hstaged, hfloor, rfl⟩
    exact ⟨i, pool, post, hselect, hjudge, hinflow, houtflow, hpost, hstaged, hfloor, rfl, rfl,
      rfl⟩
  · rintro ⟨i, pool, post, hselect, hjudge, hinflow, houtflow, hpost, hstaged, hfloor, hinitiator,
      hunknown, hvalue⟩
    rw [hvalue] at hfloor
    refine ⟨i, hselect, (plan.action, pool), hjudge, plan.inflow, hinflow, plan.outflow, houtflow,
      post, hpost, plan.staged, hstaged, hfloor, ?_⟩
    dsimp only
    rw [← hinitiator, ← hunknown, ← hvalue]

/-- Every plan balances at the level of outputs. -/
theorem balances_of_plan
    (hregistry : ∀ p pool, registry.get? p = some pool →
      pool.utxos.reserves = .ok pool.reserves)
    (h : rules.plan registry set index queueLength = .ok plan) :
    ∃ i pool spends receives spent created, set.intentions[index.toNat]? = some i ∧
      registry.get? i.pool = some pool ∧ OutPoint.parseAll i.spends = .ok spends ∧
      OutPoint.parseAll i.receives = .ok receives ∧
      plan.Balances i pool spends receives spent created := by
  obtain ⟨i, pool, post, hselect, hjudge, hinflow, houtflow, hpost, hstaged, -, -, hunknown, -⟩ :=
    plan_eq_ok_iff.1 h
  obtain ⟨-, -, hcoins, hpool, -, -, -⟩ := judge_eq_ok_iff.1 hjudge
  have hprojected := hregistry i.pool pool hpool
  have hcanonical : post.Canonical :=
    Pool.canonical_of_afterFlows (UtxoSet.canonical_of_reserves hprojected) hpost
  obtain ⟨spends, receives, spent, created, hspends, hreceives, hrestocks⟩ :=
    Pool.restocks_of_stage hprojected hcanonical hstaged
  have hreserves : ∀ id, (pool.reserves.amountOf id).toNat + (plan.inflow.amountOf id).toNat =
      (plan.staged.reserves.amountOf id).toNat + (plan.outflow.amountOf id).toNat := by
    intro id
    rw [(Pool.reserves_of_stage hstaged).1]
    exact (Pool.toNat_amountOf_afterFlows (Reserves.Canonical.of_creditAll hinflow)
      (Reserves.Canonical.of_creditAll houtflow) hpost id).symm
  refine ⟨i, pool, spends, receives, spent, created, Outcome.ofOption_eq_ok_iff.1 hselect, hpool,
    hspends, hreceives, Reserves.toNat_amountOf_of_creditAll hinflow,
    Reserves.toNat_amountOf_of_creditAll houtflow, hrestocks, ?_, hreserves,
    Pool.succeeds_of_stage hstaged, ?_, ?_⟩
  · intro id
    have hworth := hrestocks.worth id
    have hflows := hreserves id
    omega
  · rw [hunknown]
    exact plan.inflow.tokens.nodup_keys.filter _
  · intro id
    have hpositive : ∀ coin ∈ i.inputCoins, coin.value ≠ 0#128 := fun coin hcoin =>
      (hcoins coin (List.mem_append_left _ hcoin)).2
    rw [hunknown, List.mem_filter, decide_eq_true_iff,
      Reserves.mem_keys_of_creditAll hinflow hpositive, and_assoc]

theorem balances_of_plan_sample :
    let s := (Settlement.create Settlement.Sample.rules (.create 0#64 0#128) 10).after
      (Settlement.Sample.staging.take 2)
    ∃ plan pool spends receives spent created,
      Settlement.Sample.rules.plan s.registry ⟨"trader", [Settlement.Sample.mixed]⟩ 0#32 0#32 =
        .ok plan ∧
      plan.Balances Settlement.Sample.mixed pool spends receives spent created ∧
      plan.unknownTokens = [Settlement.Sample.stray] := by
  intro s
  obtain ⟨hprojected, hunknown⟩ :
      (s.registry.pools.entries.all fun e => decide (e.2.utxos.reserves = .ok e.2.reserves)) ∧
        (Settlement.Sample.rules.plan s.registry ⟨"trader", [Settlement.Sample.mixed]⟩ 0#32
          0#32).toOption.map Plan.unknownTokens = some [Settlement.Sample.stray] := by
    decide +kernel
  obtain ⟨plan, haccepted, hunknown⟩ := Option.map_eq_some_iff.1 hunknown
  have hplan := Outcome.toOption_eq_some_iff.1 haccepted
  obtain ⟨i, pool, spends, receives, spent, created, hselect, -, -, -, hbalances⟩ :=
    balances_of_plan (Registry.forall_of_all hprojected) hplan
  cases hselect
  exact ⟨plan, pool, spends, receives, spent, created, hplan, hbalances, hunknown⟩

end Rules

end RuneSettlement
