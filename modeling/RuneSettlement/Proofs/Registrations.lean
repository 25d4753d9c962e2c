import RuneSettlement.Proofs.RewardConservation

/-!
# Registrations

The effect of a pending transaction is that of its action: a registration opens an account for its
initiator, a withdrawal takes what its pool pays (`Plan.effect`). The commit of a registration is
all that ever opens an account, so an account is there just when one registration of it has been
committed (`Settlement.registrations_after`). With what holds of the pending effects until they take
place, this makes up `Session.effects_never_conflict`.
-/

namespace RuneSettlement

namespace Intention

def IsRegister (i : Intention) : Prop := Action.parse i.action = .ok .register

instance (i : Intention) : Decidable i.IsRegister := inferInstanceAs (Decidable (_ = _))

end Intention

/-- The effect of a plan on the account of its initiator, by its action. -/
def Plan.effect (plan : Plan) : AccountEffect :=
  match plan.action with
  | .register => .register plan.initiator
  | .withdraw => .withdraw plan.initiator (plan.outflow.amountOf plan.staged.token)
  | .swap | .addLiquidity => .none

lemma Plan.effect_eq_register_iff {plan : Plan} {account : Address} :
    plan.effect = .register account ↔ plan.action = .register ∧ plan.initiator = account := by
  unfold effect
  cases plan.action <;> simp

/-- Whether the transaction carries out a register intention of an account. -/
def PendingTransaction.registers (slot : PendingTransaction) (account : Address) : Bool :=
  decide (slot.set.initiator = account) &&
    slot.intention.toOption.any fun i => decide i.IsRegister

lemma PendingTransaction.registers_iff {slot : PendingTransaction} {i : Intention}
    {account : Address} (hi : slot.intention = .ok i) :
    slot.registers account = true ↔ slot.set.initiator = account ∧ i.IsRegister := by
  simp [registers, hi, Except.toOption]

namespace AccountBook

variable {b b' : AccountBook} {id account : Address}

/-- How many accounts have an identifier. -/
def present (b : AccountBook) (id : Address) : Nat := (b.get? id).elim 0 fun _ => 1

lemma present_le_one (b : AccountBook) (id : Address) : b.present id ≤ 1 := by
  unfold present
  cases b.get? id <;> simp

lemma present_eq_one_iff : b.present id = 1 ↔ (b.get? id).isSome = true := by
  unfold present
  cases b.get? id <;> simp

/-- Writing to an account that is there opens none. -/
lemma present_replace {found raised : Account} (hfound : b.get? id = some found)
    (hb' : b'.accounts = b.accounts.insert id raised) : b'.present account = b.present account := by
  unfold present
  rw [get?, hb', SortedMap.get?_insert]
  split
  · next hsame => rw [← Key.same_iff.1 hsame, hfound, Option.elim_some, Option.elim_some]
  · rfl

/-- An effect that takes place opens an account when it is a registration, and only then. -/
lemma Filed.present_preview {effect : AccountEffect} {account? : Option Account} {now : Timestamp}
    (hb : b.Filed) (h : b.preview effect now = .ok account?) :
    (account?.elim b b.store).present account =
      b.present account + if effect = .register account then 1 else 0 := by
  cases effect with
  | none =>
    cases h
    rfl
  | register id =>
    obtain ⟨habsent, rfl⟩ := preview_register_eq_ok_iff.1 h
    rw [present, get?_elim_store, present]
    by_cases hid : id = account
    · rw [← hid, habsent]
      simp [Account.create]
    · simp [Account.create, hid]
  | withdraw id amount =>
    obtain ⟨found, withdrawable, hfound, -, rfl⟩ := preview_withdraw_eq_ok_iff.1 h
    have hid := hb id found hfound
    let updated : Account := { found with withdrawable, lastAction := some now }
    have hstored : (b.store updated).accounts = b.accounts.insert id updated := by
      rw [← hid]
      rfl
    rw [if_neg (by simp), Nat.add_zero]
    exact present_replace hfound hstored

end AccountBook

namespace Settlement

variable {s s' : Settlement} {call : Call} {answer : Outcome Receipt}

lemma effect_of_accountEffect_eq_ok {plan : Plan} {now : Timestamp} {effect : AccountEffect}
    (h : s.accountEffect plan now = .ok effect) : effect = plan.effect := by
  unfold Plan.effect
  rcases accountEffect_cases h with ⟨haction | haction, rfl⟩ | ⟨haction, rfl, -⟩ |
    ⟨haction, rfl, -⟩
  · rw [haction]
  · rw [haction]
  · rw [haction]
  · rw [haction]

/-- Just the pending register intentions have the effect that opens their initiator's account. -/
def Registering (s : Settlement) : Prop :=
  ∀ p slot account, s.pendingOn? p = some slot →
    (slot.registers account = true ↔ slot.effect = .register account)

/-- The effect of a prepared transaction is that of the action its intention names, on the account
of its initiator. -/
lemma action_of_prepare {request : ExecuteRequest} {now : Timestamp} {prepared : Prepared}
    (h : s.prepare request now = .ok prepared) :
    ∃ i, request.set.select request.index = .ok i ∧
      Action.parse i.action = .ok prepared.plan.action ∧
      prepared.plan.initiator = request.set.initiator ∧
      prepared.effect = prepared.plan.effect := by
  obtain ⟨i, pool, post, hbasis, -⟩ := exists_basis_of_prepare h
  obtain ⟨_, -, -, -, -, hplan, heffect⟩ := of_prepare_eq_ok h
  exact ⟨i, hbasis.selected, Rules.parse_of_plan_eq_ok hplan hbasis.selected, hbasis.initiator,
    effect_of_accountEffect_eq_ok heffect⟩

lemma registers_iff_of_prepare {request : ExecuteRequest} {now : Timestamp} {prepared : Prepared}
    (h : s.prepare request now = .ok prepared) (account : Address) :
    (prepared.pendingTransaction request now).registers account = true ↔
      prepared.effect = .register account := by
  obtain ⟨i, hselect, hparse, hinitiator, heffect⟩ := action_of_prepare h
  have hregister : i.IsRegister ↔ prepared.plan.action = .register := by
    rw [Intention.IsRegister, hparse, Except.ok.injEq]
  have hi : (prepared.pendingTransaction request now).intention = .ok i := hselect
  rw [PendingTransaction.registers_iff hi, heffect, Plan.effect_eq_register_iff, hinitiator,
    hregister]
  exact and_comm

theorem registering_after (rules : Rules) (accounts : AccountBook) (capacity : Nat)
    (calls : List Call) : ((create rules accounts capacity).after calls).Registering := by
  intro p slot account hslot
  obtain ⟨_, _, _, _, -, hchecked, rfl⟩ := exists_prepare_of_pendingOn? hslot
  exact registers_iff_of_prepare hchecked account

/-- How many register intentions of an account the steps have committed. -/
def registrations (steps : List Step) (account : Address) : Nat :=
  (committed steps).countP (·.registers account)

/-- An account appears in the move that commits a registration of it, and in no other. -/
lemma Moves.present (h : Moves s call answer s') (hfiled : s.accounts.Filed)
    (hs : s.Registering) (account : Address) :
    s'.accounts.present account = s.accounts.present account +
      (Step.committed? ⟨s, call, answer⟩).toList.countP (·.registers account) := by
  cases hslot : Step.committed? ⟨s, call, answer⟩ with
  | some slot =>
    obtain ⟨p, now, account?, -, hpending, hpreview, haccounts, -⟩ := h.of_committed? hslot
    rw [haccounts, hfiled.present_preview hpreview, Option.toList_some, List.countP_singleton]
    simp only [hs p slot account hpending]
  | none =>
    rw [Option.toList_none, List.countP_nil, Nat.add_zero]
    cases h with
    | committed named keyed pending =>
      rw [committed?_of_committed named keyed pending] at hslot
      cases hslot
    | claimed due =>
      obtain ⟨found, withdrawable, hfound, -, -, -, -, rfl⟩ := AccountBook.claim_eq_ok_iff.1 due
      obtain rfl := hfiled _ _ hfound
      exact AccountBook.present_replace hfound rfl
    | accrued within =>
      obtain ⟨found, accrued, hfound, -, -, -, rfl⟩ := AccountBook.accrue_eq_ok_iff.1 within
      exact AccountBook.present_replace hfound rfl
    | _ => rfl

/-- The accounts are those that registrations have been committed of. -/
theorem registrations_after (config : Config) (calls : List Call) (account : Address) :
    registrations ((ofConfig config).trace calls) account =
      ((ofConfig config).after calls).accounts.present account := by
  induction calls using List.reverseRecOn with
  | nil => rfl
  | append_singleton calls call ih =>
    have hregistering := registering_after config.rules config.accountBook
      config.resolutionLogCapacity.toNat calls
    rw [registrations, committed_concat, List.countP_append, after_concat,
      (moves_perform _ call).present (filed_after config calls) hregistering account, ← ih,
      registrations]

/-- A pending effect that takes something away belongs to a withdrawal, whose pool pays just that to
its initiator. -/
lemma Paying.of_withdraw {p account : Address} {slot : PendingTransaction} {amount : Amount}
    (hs : s.Paying) (hslot : s.pendingOn? p = some slot)
    (heffect : slot.effect = .withdraw account amount) (hpositive : 0 < amount.toNat) :
    slot.inflow = .empty ∧ slot.outflow.amountOf s.rules.rewardToken = amount ∧
      ∀ id, id ≠ s.rules.rewardToken → slot.outflow.amountOf id = 0#128 := by
  obtain ⟨⟨i, hi, htaken⟩, hpays⟩ := hs p slot hslot
  have hwithdraw : i.IsWithdraw := by
    by_contra hother
    rw [Intention.payout, if_neg hother, heffect, AccountEffect.taken] at htaken
    omega
  obtain ⟨hinflow, paid, hpaid, hamount, hothers⟩ := hpays i hi hwithdraw
  rw [heffect, AccountEffect.withdraw.injEq] at hpaid
  obtain ⟨-, rfl⟩ := hpaid
  exact ⟨hinflow, BitVec.eq_of_toNat_eq hamount, hothers⟩

/-- What holds of a pending effect until it takes place. -/
structure Unopposed (s : Settlement) (slot : PendingTransaction) : Prop where
  register : ∀ account, slot.effect = .register account → s.accounts.get? account = none
  withdraw : ∀ account amount, slot.effect = .withdraw account amount →
    ∃ found, s.accounts.get? account = some found ∧ 0 < amount.toNat ∧
      amount.toNat ≤ found.withdrawable.toNat ∧
      slot.inflow = .empty ∧ slot.outflow.amountOf s.rules.rewardToken = amount ∧
      ∀ id, id ≠ s.rules.rewardToken → slot.outflow.amountOf id = 0#128
  preview : ∀ now, ∃ account?, s.accounts.preview slot.effect now = .ok account?

lemma EffectsStand.unopposed {p : Address} {slot : PendingTransaction} (hs : s.EffectsStand)
    (hpaying : s.Paying) (hslot : s.pendingOn? p = some slot) : s.Unopposed slot where
  register := by
    intro account heffect
    have hadmits := hs.admitted p slot hslot
    rw [heffect] at hadmits
    cases hadmits with
    | register absent => exact absent
  withdraw := by
    intro account amount heffect
    have hadmits := hs.admitted p slot hslot
    rw [heffect] at hadmits
    cases hadmits with
    | withdraw found positive covered =>
      exact ⟨_, found, positive, covered, hpaying.of_withdraw hslot heffect positive⟩
  preview := (hs.admitted p slot hslot).exists_preview_eq_ok

end Settlement

namespace Session

namespace Sample

/-- An account is registered and has claimed its rewards, and their payout is pending. -/
def withdrawing : List Event := rewarding.dropLast

end Sample

/-- Pending account effects never conflict. After every session no two of them name one account.
A pending registration names an account that is not there; a pending withdrawal names one that may
withdraw at least its amount, which is all that its pool pays and not zero; so every effect can take
place at any time. An account is there just when one registration of it has been committed, and
never have two been. -/
theorem effects_never_conflict (config : Config) (events : List Event) :
    let s := ((start config).after events).exchange.settlement
    let steps := (Settlement.ofConfig config).trace ((start config).settlementCalls events)
    (∀ p q slot other account, s.pendingOn? p = some slot → s.pendingOn? q = some other →
      slot.effect.account? = some account → other.effect.account? = some account → p = q) ∧
    (∀ p slot, s.pendingOn? p = some slot → s.Unopposed slot) ∧
    ∀ account, Settlement.registrations steps account ≤ 1 ∧
      ((s.accounts.get? account).isSome = true ↔
        Settlement.registrations steps account = 1) := by
  intro s steps
  have hrun : s = (Settlement.ofConfig config).after ((start config).settlementCalls events) :=
    settlement_after config events
  have hstand : s.EffectsStand := effectsStand_after config events
  have hpaying : s.Paying := by
    rw [hrun]
    exact Settlement.paying_after _ _ _ _
  refine ⟨hstand.apart, fun p slot hslot => hstand.unopposed hpaying hslot, ?_⟩
  intro account
  have hcount : Settlement.registrations steps account = s.accounts.present account := by
    rw [hrun]
    exact Settlement.registrations_after config _ account
  rw [hcount, AccountBook.present_eq_one_iff]
  exact ⟨s.accounts.present_le_one account, Iff.rfl⟩

theorem effects_never_conflict_sample :
    ∃ slot found,
      ((start Sample.uncooled).after Sample.withdrawing).exchange.settlement.pendingOn? "pool" =
        some slot ∧
      ((start Sample.uncooled).after Sample.withdrawing).exchange.settlement.accounts.get?
        "trader" = some found ∧
      slot.effect = .withdraw "trader" 9#128 ∧ 9 ≤ found.withdrawable.toNat ∧
      slot.outflow.amountOf Settlement.Sample.token = 9#128 ∧
      Settlement.registrations ((Settlement.ofConfig Sample.uncooled).trace
        ((start Sample.uncooled).settlementCalls Sample.withdrawing)) "trader" = 1 := by
  obtain ⟨hslot, hrules⟩ :
      (((start Sample.uncooled).after Sample.withdrawing).exchange.settlement.pendingOn?
        "pool").map (·.effect) = some (.withdraw "trader" 9#128) ∧
      ((start Sample.uncooled).after Sample.withdrawing).exchange.settlement.rules.rewardToken =
        Settlement.Sample.token := by
    decide +kernel
  obtain ⟨slot, hslot, heffect⟩ := Option.map_eq_some_iff.1 hslot
  obtain ⟨-, hstands, hregistered⟩ :=
    effects_never_conflict Sample.uncooled Sample.withdrawing
  obtain ⟨found, hfound, -, hcovered, -, hpaid, -⟩ :=
    (hstands "pool" slot hslot).withdraw _ _ heffect
  obtain ⟨-, hone⟩ := hregistered "trader"
  rw [hrules] at hpaid
  refine ⟨slot, found, hslot, hfound, heffect, hcovered, hpaid, hone.1 ?_⟩
  rw [hfound]
  rfl

end Session

end RuneSettlement
