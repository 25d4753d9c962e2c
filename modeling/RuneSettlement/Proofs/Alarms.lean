import RuneSettlement.Proofs.Balance
import RuneSettlement.Proofs.ReserveAlgebra

/-!
# Alarms that never go off

While it stages a pool, a plan makes checks that would only fail if reserves and outputs had drifted
apart. Where the reserves of every pool are the projection of its outputs none of them does: what is
left after the spends is summed up, no shortfall is negative, no new output is refused, the spends
succeed a second time, and the staged pool agrees with its outputs (`Pool.steady_of_spend`). So no
plan is refused with an invalid state or with insufficient funds (`Rules.plan_never_drifts`).
-/

namespace RuneSettlement

/-- The causes that a plan may be refused for: what an intention asks for is malformed, does not fit
the pool that it names or is too little. -/
inductive Refusal.OfIntention : Refusal → Prop
  | input : OfIntention .invalidInput
  | numeral : OfIntention .invalidNumeral
  | txid (text : String) : OfIntention (.invalidTxid text)
  | runeId : OfIntention .invalidRuneId
  | nonce (current : Nonce) : OfIntention (.staleNonce current)
  | pool : OfIntention .poolNotFound
  | floor : OfIntention .belowFloor
  | liquidity : OfIntention .invalidLiquidity
  | empty : OfIntention .emptyPool
  | overflow : OfIntention .overflow
  | beyondSats (value : Amount) : OfIntention (.beyondSats value)

attribute [simp] Refusal.OfIntention.input Refusal.OfIntention.numeral Refusal.OfIntention.txid
  Refusal.OfIntention.runeId Refusal.OfIntention.nonce Refusal.OfIntention.pool
  Refusal.OfIntention.floor Refusal.OfIntention.liquidity Refusal.OfIntention.empty
  Refusal.OfIntention.overflow Refusal.OfIntention.beyondSats

open Refusal (OfIntention)

/-! ### Amounts and names -/

namespace Reserves

lemma refusesOnly_creditAll (r : Reserves) (coins : List Coin) :
    (r.creditAll coins).RefusesOnly OfIntention :=
  Outcome.refusesOnly_foldlM
    (fun r coin => by simp [credit, Quantity.toSats, Quantity.add]) r coins

lemma refusesOnly_debitAll (r : Reserves) (coins : List Coin) :
    (r.debitAll coins).RefusesOnly (· = .insufficientFunds) :=
  Outcome.refusesOnly_foldlM refusesOnly_debit r coins

end Reserves

lemma Txid.refusesOnly_parse (text : String) : (parse text).RefusesOnly OfIntention := by
  unfold parse
  split <;> simp

lemma OutPoint.refusesOnly_parse (text : String) : (parse text).RefusesOnly OfIntention := by
  simp [parse, Txid.refusesOnly_parse]

lemma OutPoint.refusesOnly_parseAll (texts : List String) :
    (parseAll texts).RefusesOnly OfIntention :=
  Outcome.refusesOnly_mapM refusesOnly_parse texts

namespace UtxoSet

lemma refusesOnly_spend (s : UtxoSet) (ids : List OutPoint) :
    (s.spend ids).RefusesOnly (· = .invalidInput) := by
  induction ids generalizing s with
  | nil => simp [spend]
  | cons id ids ih => simp [spend, ih]

lemma refusesOnly_receive (s : UtxoSet) (utxos : List Utxo) :
    (s.receive utxos).RefusesOnly (· = .invalidInput) :=
  Outcome.refusesOnly_foldlM (fun s u => by simp [add]) s utxos

end UtxoSet

/-! ### Shortfalls -/

namespace Shortfall

variable {remaining post : Reserves} {s : Shortfall}

/-- No holding is less than what remains of it, where no listed token is lost. -/
lemma amountOf_le_of_mem_tokenCoins (hpost : post.Canonical)
    (hheld : ∀ coin ∈ remaining.tokenCoins, coin.value.toNat ≤ (post.amountOf coin.id).toNat)
    {holding : Coin} (hholding : holding ∈ post.tokenCoins) :
    (remaining.amountOf holding.id).toNat ≤ holding.value.toNat := by
  have hid : holding.id ≠ .native := by
    apply hpost.ne_native_of_mem_keys
    rw [← Reserves.ids_tokenCoins]
    exact List.mem_map_of_mem hholding
  rw [← hpost.amountOf_of_mem_tokenCoins hholding]
  exact le_of_ne_native hheld hid

lemma refusesOnly_between (hpost : post.Canonical) :
    (between remaining post).RefusesOnly (· = .invalidLiquidity) := by
  rw [between, Outcome.refusesOnly_bind_iff]
  refine ⟨by simp, fun native _ => ?_⟩
  by_cases hlost : remaining.tokenCoins.any fun c =>
      decide ((post.amountOf c.id).toNat < c.value.toNat)
  · rw [if_pos hlost]
    simp
  · rw [if_neg hlost, Outcome.refusesOnly_bind_iff]
    simp only [List.any_eq_true, decide_eq_true_eq, not_exists, not_and, Nat.not_lt] at hlost
    refine ⟨Outcome.refusesOnly_of_exists ?_, by simp⟩
    apply exists_mapM_ofHolding?
    intro holding hholding
    exact amountOf_le_of_mem_tokenCoins hpost hlost hholding

/-- No short token is the native coin. -/
lemma ne_native_of_between (hpost : post.Canonical) (h : between remaining post = .ok s)
    {coin : Coin} (hcoin : coin ∈ s.tokens) : coin.id ≠ .native :=
  (exact_of_between hpost h).ne_native hpost hcoin

end Shortfall

lemma refusesOnly_assignReceives {ids : List OutPoint} {remaining post : Reserves}
    (hpost : post.Canonical) : (assignReceives ids remaining post).RefusesOnly OfIntention := by
  rw [assignReceives, Outcome.refusesOnly_bind_iff]
  refine ⟨(Shortfall.refusesOnly_between hpost).mono (by simp), fun s hs => ?_⟩
  rw [Shortfall.outputs, Outcome.refusesOnly_ite_iff]
  refine ⟨by simp, fun _ => Outcome.refusesOnly_of_exists ?_⟩
  exact Shortfall.exists_fill fun coin hcoin => Shortfall.ne_native_of_between hpost hs hcoin

/-! ### Staging -/

namespace Pool

variable {p : Pool} {spends : List OutPoint} {spent : List Utxo} {rest : UtxoSet}
  {remaining post : Reserves}

/-- The checks that follow when a pool that is to have reserves `post` has spent some outputs, with
`rest` left that hold `remaining`. -/
structure Steady (p : Pool) (spends : List OutPoint) (rest : UtxoSet)
    (remaining post : Reserves) : Prop where
  /-- What is left can be summed up. -/
  summed : rest.reserves = .ok remaining
  /-- No shortfall is negative where no token that remains was found to be lost. -/
  subtracted : (∀ coin ∈ remaining.tokenCoins, coin.value.toNat ≤ (post.amountOf coin.id).toNat) →
    ∀ holding ∈ post.tokenCoins,
      ∃ short, Quantity.sub holding.value (remaining.amountOf holding.id) = .ok short
  /-- No new output is refused, whatever of the shortfall it is to carry. -/
  made : ∀ s, Shortfall.between remaining post = .ok s →
    ∀ outpoint sats rune, (∀ coin, rune = some coin → coin ∈ s.tokens) →
      Utxo.make outpoint sats rune = .ok ⟨outpoint, sats, rune⟩
  /-- The pool with the new outputs agrees with its reserves. -/
  checked : ∀ ids outputs utxos nonce, assignReceives ids remaining post = .ok outputs →
    rest.receive outputs = .ok utxos →
    checkReserves { p with utxos, reserves := post, nonce } = .ok ()
  /-- The spends succeed again: a transition is only refused for what it receives, or because the
  nonce is the last one. -/
  moved : ∀ ids outputs, assignReceives ids remaining post = .ok outputs →
    (p.transition spends outputs post).RefusesOnly fun refusal =>
      (refusal = .invalidInput ∧ rest.receive outputs = .error .invalidInput) ∨
        (refusal = .overflow ∧ p.nonce.toNat = 2 ^ 64 - 1)

lemma checkReserves_of_receive (hpost : post.Canonical) (hremaining : rest.reserves = .ok remaining)
    {ids : List OutPoint} {outputs : List Utxo} {utxos : UtxoSet} (nonce : Nonce)
    (houtputs : assignReceives ids remaining post = .ok outputs)
    (hreceive : rest.receive outputs = .ok utxos) :
    checkReserves { p with utxos, reserves := post, nonce } = .ok () :=
  checkReserves_eq_ok_iff.2 (UtxoSet.reserves_of_receive hpost hremaining houtputs hreceive)

lemma refusesOnly_transition (hspend : p.utxos.spend spends = .ok (spent, rest))
    (hpost : post.Canonical) (hremaining : rest.reserves = .ok remaining) {ids : List OutPoint}
    {outputs : List Utxo} (houtputs : assignReceives ids remaining post = .ok outputs) :
    (p.transition spends outputs post).RefusesOnly fun refusal =>
      (refusal = .invalidInput ∧ rest.receive outputs = .error .invalidInput) ∨
        (refusal = .overflow ∧ p.nonce.toNat = 2 ^ 64 - 1) := by
  rw [transition, hspend, Outcome.refusesOnly_bind_iff]
  refine ⟨by simp, ?_⟩
  rintro _ ⟨⟩
  rw [Outcome.refusesOnly_bind_iff]
  constructor
  · intro refusal hrefused
    obtain rfl := rest.refusesOnly_receive outputs refusal hrefused
    exact .inl ⟨rfl, hrefused⟩
  · intro utxos hreceive
    rw [Outcome.refusesOnly_bind_iff]
    constructor
    · intro refusal hrefused
      obtain ⟨rfl, hbeyond⟩ := Quantity.add_eq_error_iff.1 hrefused
      rw [Word.greatest, BitVec.toNat_allOnes, BitVec.toNat_ofNat] at hbeyond
      have hnonce := p.nonce.isLt
      exact .inr ⟨rfl, by omega⟩
    · intro nonce _
      dsimp only
      rw [checkReserves_of_receive hpost hremaining nonce houtputs hreceive]
      exact Outcome.refusesOnly_ok _

/-- Where the reserves of a pool are the projection of its outputs, none of the checks that follow
its spends fails without need. -/
theorem steady_of_spend (hp : p.utxos.reserves = .ok p.reserves) (hpost : post.Canonical)
    (hspend : p.utxos.spend spends = .ok (spent, rest)) :
    ∃ remaining, p.Steady spends rest remaining post := by
  obtain ⟨remaining, hremaining, -⟩ := exists_remaining hp hspend
  refine ⟨remaining, hremaining, ?_, ?_, ?_, ?_⟩
  · intro hheld holding hholding
    exact Quantity.exists_sub_eq_ok
      (Shortfall.amountOf_le_of_mem_tokenCoins hpost hheld hholding)
  · intro s hs outpoint sats rune hrune
    rw [Utxo.make_eq_ok_iff]
    exact ⟨fun coin hcoin => Shortfall.ne_native_of_between hpost hs (hrune coin hcoin), rfl⟩
  · intro ids outputs utxos nonce houtputs hreceive
    exact checkReserves_of_receive hpost hremaining nonce houtputs hreceive
  · intro ids outputs houtputs
    exact refusesOnly_transition hspend hpost hremaining houtputs

lemma refusesOnly_afterFlows (p : Pool) (inflow outflow : Reserves) :
    (p.afterFlows inflow outflow).RefusesOnly OfIntention := by
  rw [afterFlows, Outcome.refusesOnly_bind_iff]
  refine ⟨p.reserves.refusesOnly_creditAll inflow.coins, fun gross _ => ?_⟩
  have hdebit := gross.refusesOnly_debitAll outflow.coins
  split
  · simp
  · next hother =>
    -- The one cause that debits are refused for has been answered in the other case.
    intro refusal hrefused
    obtain rfl := hdebit refusal hrefused
    exact absurd hrefused hother

lemma refusesOnly_stage (hp : p.utxos.reserves = .ok p.reserves) (hpost : post.Canonical)
    (spends receives : List String) :
    (p.stage spends receives post).RefusesOnly OfIntention := by
  rw [stage, Outcome.refusesOnly_bind_iff]
  refine ⟨OutPoint.refusesOnly_parseAll spends, fun spendIds _ => ?_⟩
  rw [Outcome.refusesOnly_bind_iff]
  refine ⟨OutPoint.refusesOnly_parseAll receives, fun receiveIds _ => ?_⟩
  rw [Outcome.refusesOnly_bind_iff]
  refine ⟨(p.utxos.refusesOnly_spend spendIds).mono (by simp), ?_⟩
  rintro ⟨spent, rest⟩ hspend
  obtain ⟨remaining, hsteady⟩ := steady_of_spend hp hpost hspend
  dsimp only
  rw [hsteady.summed, Outcome.refusesOnly_bind_iff]
  refine ⟨by simp, ?_⟩
  rintro _ ⟨⟩
  rw [Outcome.refusesOnly_bind_iff]
  refine ⟨refusesOnly_assignReceives hpost, fun outputs houtputs => ?_⟩
  refine (hsteady.moved receiveIds outputs houtputs).mono fun refusal hcause => ?_
  rcases hcause with ⟨rfl, -⟩ | ⟨rfl, -⟩ <;> simp

end Pool

namespace Rules

variable {rules : Rules} {registry : Registry} {set : IntentionSet} {index queueLength : BitVec 32}

lemma refusesOnly_judge (initiator : Address) (i : Intention) :
    (rules.judge registry initiator i).RefusesOnly OfIntention := by
  have hcoins : ∀ coins : List Coin,
      (forM coins Intention.checkCoin).RefusesOnly OfIntention :=
    Outcome.refusesOnly_forM fun coin => by simp [Intention.checkCoin]
  simp [judge, Action.parse, Registry.require, hcoins]

/-- A plan is only refused for its intention. -/
theorem refusesOnly_plan
    (hregistry : ∀ p pool, registry.get? p = some pool →
      pool.utxos.reserves = .ok pool.reserves) :
    (rules.plan registry set index queueLength).RefusesOnly OfIntention := by
  rw [plan, Outcome.refusesOnly_bind_iff]
  refine ⟨by simp [IntentionSet.select], fun i _ => ?_⟩
  rw [Outcome.refusesOnly_bind_iff]
  refine ⟨refusesOnly_judge set.initiator i, ?_⟩
  rintro ⟨action, pool⟩ hjudge
  obtain ⟨-, -, -, hpool, -, -, -⟩ := judge_eq_ok_iff.1 hjudge
  have hprojected := hregistry i.pool pool hpool
  dsimp only
  rw [Outcome.refusesOnly_bind_iff]
  refine ⟨Reserves.empty.refusesOnly_creditAll i.inputCoins, fun inflow _ => ?_⟩
  rw [Outcome.refusesOnly_bind_iff]
  refine ⟨Reserves.empty.refusesOnly_creditAll i.outputCoins, fun outflow _ => ?_⟩
  rw [Outcome.refusesOnly_bind_iff]
  refine ⟨pool.refusesOnly_afterFlows inflow outflow, fun post hpost => ?_⟩
  have hcanonical : post.Canonical :=
    Pool.canonical_of_afterFlows (UtxoSet.canonical_of_reserves hprojected) hpost
  rw [Outcome.refusesOnly_bind_iff]
  refine ⟨Pool.refusesOnly_stage hprojected hcanonical i.spends i.receives, fun staged _ => ?_⟩
  simp [FeeFloor.check]

/-- The alarms of a plan are silent. -/
theorem plan_never_drifts
    (hregistry : ∀ p pool, registry.get? p = some pool →
      pool.utxos.reserves = .ok pool.reserves) :
    (∀ refusal, rules.plan registry set index queueLength = .error refusal →
      refusal ≠ .insufficientFunds ∧ ∀ reason, refusal ≠ .invalidState reason) ∧
    ∀ p pool inflow outflow post spends spent rest, registry.get? p = some pool →
      pool.afterFlows inflow outflow = .ok post →
      pool.utxos.spend spends = .ok (spent, rest) →
      ∃ remaining, pool.Steady spends rest remaining post := by
  constructor
  · intro refusal hrefused
    have hcause := refusesOnly_plan hregistry refusal hrefused
    constructor
    · rintro rfl
      cases hcause
    · rintro reason rfl
      cases hcause
  · intro p pool inflow outflow post spends spent rest hpool hpost hspend
    have hprojected := hregistry p pool hpool
    exact Pool.steady_of_spend hprojected
      (Pool.canonical_of_afterFlows (UtxoSet.canonical_of_reserves hprojected) hpost) hspend

theorem plan_never_drifts_sample :
    let s := (Settlement.create Settlement.Sample.rules (.create 0#64 0#128) 10).after
      (Settlement.Sample.staging.take 2)
    let wanting := { Settlement.Sample.swap with receives := [] }
    let spends := [Settlement.Sample.legA.outpoint]
    (∃ refusal, Settlement.Sample.rules.plan s.registry ⟨"trader", [wanting]⟩ 0#32 0#32 =
        .error refusal ∧ refusal ≠ .insufficientFunds ∧ ∀ reason, refusal ≠ .invalidState reason) ∧
      ∃ pool spent rest remaining, s.registry.get? "pool" = some pool ∧
        pool.utxos.spend spends = .ok (spent, rest) ∧
        pool.Steady spends rest remaining pool.reserves := by
  intro s wanting spends
  obtain ⟨hprojected, hrefused, hpost, hspend⟩ :
      (s.registry.pools.entries.all fun e => decide (e.2.utxos.reserves = .ok e.2.reserves)) ∧
        (Settlement.Sample.rules.plan s.registry ⟨"trader", [wanting]⟩ 0#32 0#32).toOption = none ∧
        (s.registry.get? "pool").map (fun pool => pool.afterFlows .empty .empty) =
          (s.registry.get? "pool").map (fun pool => .ok pool.reserves) ∧
        ((s.registry.get? "pool").bind fun pool => (pool.utxos.spend spends).toOption).isSome := by
    decide +kernel
  have hdrifts := @plan_never_drifts Settlement.Sample.rules s.registry ⟨"trader", [wanting]⟩
    0#32 0#32 (Registry.forall_of_all hprojected)
  constructor
  · cases hplan : Settlement.Sample.rules.plan s.registry ⟨"trader", [wanting]⟩ 0#32 0#32 with
    | error refusal => exact ⟨refusal, rfl, hdrifts.1 refusal hplan⟩
    | ok plan =>
      rw [hplan] at hrefused
      cases hrefused
  · obtain ⟨⟨spent, rest⟩, hspend⟩ := Option.isSome_iff_exists.1 hspend
    obtain ⟨pool, hpool, htaken⟩ := Option.bind_eq_some_iff.1 hspend
    have hspend := Outcome.toOption_eq_some_iff.1 htaken
    rw [hpool] at hpost
    obtain ⟨remaining, hsteady⟩ := hdrifts.2 "pool" pool .empty .empty pool.reserves spends spent
      rest hpool (Option.some.inj hpost) hspend
    exact ⟨pool, spent, rest, remaining, hpool, hspend, hsteady⟩

end Rules

end RuneSettlement
