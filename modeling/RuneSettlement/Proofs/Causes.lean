import RuneSettlement.Proofs.Alarms
import RuneSettlement.Proofs.RewardConservation

/-!
# Who answers that an account cools down

Only the check of a cooldown refuses for one: all else that a call checks is only refused for other
causes (`Outcome.NeverCools`). So a claim and the execution of a withdrawal are the only calls that
are refused for it (`Settlement.neverCools_act`).
-/

namespace RuneSettlement

/-- The outcome is not refused because an account cools down. -/
abbrev Outcome.NeverCools {α : Type} (x : Outcome α) : Prop :=
  x.RefusesOnly fun refusal => ∀ account readyAt, refusal ≠ .coolingDown account readyAt

namespace Outcome

variable {α β : Type} {account : Address} {readyAt : Timestamp}

lemma NeverCools.ne_error {x : Outcome α} (hx : x.NeverCools) :
    x ≠ .error (.coolingDown account readyAt) := by
  intro h
  exact hx _ h account readyAt rfl

/-- No cause that lies in an intention is a cooldown. -/
lemma RefusesOnly.neverCools {x : Outcome α} (hx : x.RefusesOnly Refusal.OfIntention) :
    x.NeverCools := by
  refine hx.mono ?_
  rintro _ hcause account readyAt rfl
  cases hcause

/-- Where the first part is not refused for a cooldown, the second is. -/
lemma NeverCools.of_bind {x : Outcome α} {f : α → Outcome β} (hx : x.NeverCools)
    (h : (x >>= f) = .error (.coolingDown account readyAt)) :
    ∃ a, x = .ok a ∧ f a = .error (.coolingDown account readyAt) := by
  rcases bind_eq_error_iff.1 h with hfirst | hsecond
  · exact absurd hfirst hx.ne_error
  · exact hsecond

/-- Where the second part is not refused for a cooldown, the first is. -/
lemma eq_error_of_bind {x : Outcome α} {f : α → Outcome β} (hf : ∀ a, (f a).NeverCools)
    (h : (x >>= f) = .error (.coolingDown account readyAt)) :
    x = .error (.coolingDown account readyAt) := by
  rcases bind_eq_error_iff.1 h with hfirst | ⟨a, -, hsecond⟩
  · exact hfirst
  · exact absurd hsecond (hf a).ne_error

end Outcome

/-! ### Amounts and outputs -/

@[simp] lemma Quantity.neverCools_add {w : Nat} (a b : BitVec w) : (add a b).NeverCools := by
  simp [add]

@[simp] lemma Quantity.neverCools_sub {w : Nat} (a b : BitVec w) : (sub a b).NeverCools := by
  simp [sub]

@[simp] lemma Reserves.neverCools_creditAll (r : Reserves) (coins : List Coin) :
    (r.creditAll coins).NeverCools :=
  (r.refusesOnly_creditAll coins).neverCools

@[simp] lemma Reserves.neverCools_merge (r other : Reserves) : (r.merge other).NeverCools :=
  r.neverCools_creditAll other.coins

@[simp] lemma Txid.neverCools_parse (text : String) : (parse text).NeverCools :=
  (refusesOnly_parse text).neverCools

@[simp] lemma OutPoint.neverCools_parseAll (texts : List String) : (parseAll texts).NeverCools :=
  (refusesOnly_parseAll texts).neverCools

@[simp] lemma Utxo.neverCools_make (outpoint : OutPoint) (sats : Sats) (rune : Option Coin) :
    (make outpoint sats rune).NeverCools := by
  simp [make]

namespace UtxoSet

@[simp] lemma neverCools_receive (s : UtxoSet) (utxos : List Utxo) : (s.receive utxos).NeverCools :=
  (s.refusesOnly_receive utxos).mono (by simp)

@[simp] lemma neverCools_spend (s : UtxoSet) (ids : List OutPoint) : (s.spend ids).NeverCools :=
  (s.refusesOnly_spend ids).mono (by simp)

@[simp] lemma neverCools_reserves (s : UtxoSet) : s.reserves.NeverCools := by
  rw [reserves_eq_creditAll]
  exact Reserves.empty.neverCools_creditAll s.coins

end UtxoSet

@[simp] lemma Shortfall.neverCools_fill (sats : Sats) (ids : List OutPoint) (coins : List Coin) :
    (fill sats ids coins).NeverCools := by
  induction ids generalizing sats coins with
  | nil => simp [fill]
  | cons id ids ih => simp [fill, ih]

@[simp] lemma neverCools_assignReceives (ids : List OutPoint) (remaining post : Reserves) :
    (assignReceives ids remaining post).NeverCools := by
  have hholdings : (post.tokenCoins.mapM (Shortfall.ofHolding? remaining)).NeverCools :=
    Outcome.refusesOnly_mapM (fun holding => by simp [Shortfall.ofHolding?]) post.tokenCoins
  simp [assignReceives, Shortfall.between, Shortfall.outputs, hholdings]

/-! ### Pools and plans -/

namespace Pool

@[simp] lemma neverCools_checkReserves (p : Pool) : p.checkReserves.NeverCools := by
  simp [checkReserves]

@[simp] lemma neverCools_fund (p : Pool) (legs : List Utxo) : (p.fund legs).NeverCools := by
  simp [fund]

@[simp] lemma neverCools_stage (p : Pool) (spends receives : List String) (post : Reserves) :
    (p.stage spends receives post).NeverCools := by
  simp [stage, transition]

@[simp] lemma neverCools_afterFlows (p : Pool) (inflow outflow : Reserves) :
    (p.afterFlows inflow outflow).NeverCools :=
  (p.refusesOnly_afterFlows inflow outflow).neverCools

end Pool

namespace Registry

@[simp] lemma neverCools_register (r : Registry) (pool : Pool) : (r.register pool).NeverCools := by
  simp [register]

@[simp] lemma neverCools_require (r : Registry) (address : Address) :
    (r.require address).NeverCools := by
  simp [require]

@[simp] lemma neverCools_addressForKey (r : Registry) (key : String) :
    (r.addressForKey key).NeverCools := by
  simp [addressForKey]

@[simp] lemma neverCools_depositedRune (legA legB : Utxo) :
    (depositedRune legA legB).NeverCools := by
  unfold depositedRune
  split <;> simp

@[simp] lemma neverCools_deposit (r : Registry) (address : Address) (legA legB : Utxo) :
    (r.deposit address legA legB).NeverCools := by
  simp [deposit]

@[simp] lemma neverCools_commit (r : Registry) (staged : Pool) : (r.commit staged).NeverCools := by
  simp [commit]

end Registry

namespace FlowBook

@[simp] lemma neverCools_check (b : FlowBook) (pool : Address) (inflow outflow actual : Reserves) :
    (b.check pool inflow outflow actual).NeverCools := by
  unfold check
  split <;> simp [violation]

@[simp] lemma neverCools_record (b : FlowBook) (pool : Address) (inflow outflow : Reserves) :
    (b.record pool inflow outflow).NeverCools := by
  simp [record, Flows.add]

end FlowBook

namespace Rules

@[simp] lemma neverCools_judge (rules : Rules) (registry : Registry) (initiator : Address)
    (i : Intention) : (rules.judge registry initiator i).NeverCools :=
  (refusesOnly_judge initiator i).neverCools

@[simp] lemma neverCools_plan (rules : Rules) (registry : Registry) (set : IntentionSet)
    (index queueLength : BitVec 32) :
    (rules.plan registry set index queueLength).NeverCools := by
  simp [plan, IntentionSet.select, FeeFloor.check]

end Rules

@[simp] lemma Plan.neverCools_checkConfirmed (plan : Plan) (confirmed : List CoinId) :
    (plan.checkConfirmed confirmed).NeverCools := by
  unfold checkConfirmed
  split <;> simp [Refusal.runeNotFound]

/-! ### Accounts -/

namespace AccountBook

@[simp] lemma neverCools_require (b : AccountBook) (id : Address) : (b.require id).NeverCools := by
  simp [require]

@[simp] lemma neverCools_checkAbsent (b : AccountBook) (id : Address) :
    (b.checkAbsent id).NeverCools := by
  simp [checkAbsent]

@[simp] lemma neverCools_accrue (b : AccountBook) (id : Address) (amount : Amount) :
    (b.accrue id amount).NeverCools := by
  simp [accrue]

@[simp] lemma neverCools_preview (b : AccountBook) (effect : AccountEffect) (now : Timestamp) :
    (b.preview effect now).NeverCools := by
  cases effect <;> simp [preview]

end AccountBook

/-! ### Calls -/

namespace Settlement

variable {α β : Type}

@[simp] lemma neverCools_decodePayload (text : String) : (decodePayload text).NeverCools := by
  unfold decodePayload
  split <;> simp

@[simp] lemma neverCools_checkIdle (s : Settlement) (pool : Address) :
    (s.checkIdle pool).NeverCools := by
  unfold checkIdle
  split <;> simp

@[simp] lemma neverCools_checkUnresolved (s : Settlement) (pool : Address) (txid : Txid) :
    (s.checkUnresolved pool txid).NeverCools := by
  unfold checkUnresolved
  split <;> simp

/-- The call is never refused because an account cools down. -/
def NeverCools (x : SettlementM α) : Prop := ∀ s, Outcome.NeverCools (x.run.run s).1

lemma neverCools_ofOutcome {x : Outcome α} (hx : x.NeverCools) : NeverCools (ofOutcome x) :=
  fun _ => hx

lemma neverCools_get : NeverCools (get : SettlementM Settlement) := fun s => Outcome.refusesOnly_ok s

lemma neverCools_set (next : Settlement) : NeverCools (set next : SettlementM PUnit) :=
  fun _ => Outcome.refusesOnly_ok _

lemma neverCools_pure (a : α) : NeverCools (pure a : SettlementM α) :=
  fun _ => Outcome.refusesOnly_ok a

lemma neverCools_throw {refusal : Refusal}
    (h : ∀ account readyAt, refusal ≠ .coolingDown account readyAt) :
    NeverCools (throw refusal : SettlementM α) :=
  fun _ => Outcome.refusesOnly_error_iff.2 h

lemma NeverCools.bind {x : SettlementM α} {f : α → SettlementM β} (hx : NeverCools x)
    (hf : ∀ a, NeverCools (f a)) : NeverCools (x >>= f) := by
  intro s
  have hfirst := hx s
  rw [run_bind]
  generalize x.run.run s = result at hfirst
  obtain ⟨answer, next⟩ := result
  cases answer with
  | error refusal =>
    exact Outcome.refusesOnly_error_iff.2 (Outcome.refusesOnly_error_iff.1 hfirst)
  | ok a => exact hf a next

lemma neverCools_registerPool (pool : Pool) : NeverCools (registerPool pool) :=
  neverCools_get.bind fun s =>
    (neverCools_ofOutcome (s.registry.neverCools_register pool)).bind fun _ => neverCools_set _

lemma neverCools_deposit (pool : Address) (legA legB : Utxo) :
    NeverCools (deposit pool legA legB) := by
  refine neverCools_get.bind fun s => ?_
  refine (neverCools_ofOutcome (s.neverCools_checkIdle pool)).bind fun _ => ?_
  refine (neverCools_ofOutcome (s.registry.neverCools_deposit pool legA legB)).bind fun r => ?_
  refine (neverCools_set _).bind fun _ => ?_
  refine (neverCools_ofOutcome (r.neverCools_require pool)).bind fun _ => ?_
  exact (neverCools_ofOutcome (by simp)).bind fun _ => neverCools_set _

lemma neverCools_commitPending (pool : Address) (now : Timestamp) :
    NeverCools (commitPending pool now) := by
  refine neverCools_get.bind fun s => ?_
  refine (neverCools_ofOutcome (by simp)).bind fun slot => ?_
  refine (neverCools_ofOutcome (by simp)).bind fun _ => ?_
  refine (neverCools_ofOutcome (s.accounts.neverCools_preview slot.effect now)).bind fun _ => ?_
  refine (neverCools_ofOutcome (by simp)).bind fun _ => ?_
  refine (neverCools_set _).bind fun _ => ?_
  exact (neverCools_ofOutcome (by simp)).bind fun _ => neverCools_set _

lemma neverCools_finalize (txid poolKey : String) (now : Timestamp) :
    NeverCools (finalize txid poolKey now) := by
  refine (neverCools_ofOutcome (by simp)).bind fun id => ?_
  refine neverCools_get.bind fun s => ?_
  refine (neverCools_ofOutcome (by simp)).bind fun pool => ?_
  split
  · exact neverCools_commitPending pool now
  · split
    · exact neverCools_pure ()
    · exact neverCools_throw (by simp)

lemma neverCools_rollback (txid poolKey : String) : NeverCools (rollback txid poolKey) := by
  refine (neverCools_ofOutcome (by simp)).bind fun id => ?_
  refine neverCools_get.bind fun s => ?_
  refine (neverCools_ofOutcome (by simp)).bind fun pool => ?_
  split
  · exact neverCools_set _
  · split
    · exact neverCools_throw (by simp)
    · exact neverCools_pure ()

lemma neverCools_accrue (account : Address) (amount : Amount) :
    NeverCools (accrue account amount) :=
  neverCools_get.bind fun s =>
    (neverCools_ofOutcome (s.accounts.neverCools_accrue account amount)).bind fun _ =>
      (neverCools_set _).bind fun _ => neverCools_pure _

/-- Only a claim and an execution can be refused because an account cools down. -/
theorem neverCools_act {call : Call} (hclaim : ∀ account now, call ≠ .claim account now)
    (hexecute : ∀ request confirmed now, call ≠ .execute request confirmed now) :
    NeverCools call.act := by
  cases call with
  | registerPool => exact (neverCools_registerPool _).bind fun _ => neverCools_pure _
  | deposit pool legA legB =>
    exact (neverCools_deposit pool legA legB).bind fun _ => neverCools_pure _
  | execute => exact absurd rfl (hexecute _ _ _)
  | finalize txid poolKey now =>
    exact (neverCools_finalize txid poolKey now).bind fun _ => neverCools_pure _
  | rollback txid poolKey =>
    exact (neverCools_rollback txid poolKey).bind fun _ => neverCools_pure _
  | claim => exact absurd rfl (hclaim _ _)
  | accrue account amount =>
    exact (neverCools_accrue account amount).bind fun _ => neverCools_pure _

end Settlement

end RuneSettlement
