import RuneSettlement.Proofs.AccountEffects
import RuneSettlement.Proofs.Conservation

/-!
# What a withdrawal pays

The effect of a pending transaction follows from its intention. A withdrawal takes from what its
initiator may withdraw just what its only output pays, and its pool loses just that
(`PendingTransaction.Pays`).
-/

namespace RuneSettlement

namespace Intention

def IsWithdraw (i : Intention) : Prop := Action.parse i.action = .ok .withdraw

instance (i : Intention) : Decidable i.IsWithdraw := inferInstanceAs (Decidable (_ = _))

/-- What the intention pays out as a withdrawal. -/
def payout (token : CoinId) (i : Intention) : Nat :=
  if i.IsWithdraw then Coin.total i.outputCoins token else 0

end Intention

namespace AccountEffect

/-- What the effect takes from a withdrawable balance. -/
def taken : AccountEffect → Nat
  | .withdraw _ amount => amount.toNat
  | _ => 0

end AccountEffect

/-- The effect of a pending transaction and its flows are what its intention asks for. -/
structure PendingTransaction.Pays (slot : PendingTransaction) (token : CoinId) : Prop where
  effect : ∃ i, slot.intention = .ok i ∧ slot.effect.taken = i.payout token
  withdraw : ∀ i, slot.intention = .ok i → i.IsWithdraw →
    slot.inflow = .empty ∧ ∃ amount, slot.effect = .withdraw slot.set.initiator amount ∧
      (slot.outflow.amountOf token).toNat = amount.toNat ∧
      ∀ id, id ≠ token → slot.outflow.amountOf id = 0#128

/-- What is not a withdrawal takes nothing and pays nothing as one. -/
lemma PendingTransaction.pays_of_other {slot : PendingTransaction} {i : Intention} {token : CoinId}
    (hi : slot.intention = .ok i) (hother : ¬i.IsWithdraw) (htaken : slot.effect.taken = 0) :
    slot.Pays token where
  effect := ⟨i, hi, by rw [Intention.payout, if_neg hother, htaken]⟩
  withdraw := by
    intro j hj hwithdraw
    obtain rfl := Except.ok.inj (hi.symm.trans hj)
    exact absurd hwithdraw hother

/-- A withdrawal pays its initiator one coin of the reward token, from a pool of that token. -/
lemma Intention.hasShape_withdraw_iff {i : Intention} {rules : Rules} {initiator : Address}
    {token : CoinId} :
    i.hasShape rules initiator token .withdraw = true ↔
      token = rules.rewardToken ∧ i.inputs = [] ∧
        ∃ value, i.outputs = [⟨initiator, ⟨rules.rewardToken, value⟩⟩] := by
  simp only [hasShape, Bool.and_eq_true, decide_eq_true_eq, and_assoc]
  refine and_congr_right fun _ => and_congr_right fun _ => ?_
  constructor
  · intro h
    split at h
    · next payout heq =>
      obtain ⟨hdestination, hid⟩ := of_decide_eq_true h
      refine ⟨payout.coin.value, ?_⟩
      rw [heq, ← hdestination, ← hid]
    · cases h
  · rintro ⟨value, heq⟩
    rw [heq]
    exact decide_eq_true ⟨rfl, rfl⟩

namespace Rules

variable {rules : Rules} {registry : Registry} {set : IntentionSet} {i : Intention}
  {index queueLength : BitVec 32} {plan : Plan}

/-- A plan has the action that its intention names. -/
lemma parse_of_plan_eq_ok (h : rules.plan registry set index queueLength = .ok plan)
    (hselect : set.select index = .ok i) : Action.parse i.action = .ok plan.action := by
  unfold Rules.plan at h
  simp only [hselect, Outcome.bind_eq_ok_iff, Outcome.when_eq_ok_iff, Outcome.pure_eq_ok_iff,
    Except.ok.injEq, exists_eq_left'] at h
  obtain ⟨⟨action, pool⟩, hjudge, _, -, _, -, _, -, _, -, -, rfl⟩ := h
  exact (judge_eq_ok_iff.1 hjudge).2.1

end Rules

namespace Settlement

variable {s : Settlement}

/-- The effect of a transaction that was prepared is what its intention asks for. -/
lemma pays_of_prepare {request : ExecuteRequest} {now : Timestamp} {prepared : Prepared}
    (h : s.prepare request now = .ok prepared) :
    (prepared.pendingTransaction request now).Pays s.rules.rewardToken := by
  obtain ⟨i, pool, post, hbasis, -⟩ := exists_basis_of_prepare h
  obtain ⟨_, -, -, -, -, hplan, heffect⟩ := of_prepare_eq_ok h
  have hselect := hbasis.selected
  have hparse := Rules.parse_of_plan_eq_ok hplan hselect
  have hout := Reserves.toNat_amountOf_creditAll hbasis.outflow
  simp only [Reserves.amountOf_empty, BitVec.toNat_ofNat, Nat.zero_mod, Nat.zero_add] at hout
  rcases accountEffect_cases heffect with ⟨hother, htaken⟩ | ⟨hregister, htaken, -⟩ |
    ⟨hwithdraw, htaken, -⟩
  · have his : ¬i.IsWithdraw := by
      rw [Intention.IsWithdraw, hparse]
      rcases hother with hother | hother
      · simp [hother]
      · simp [hother]
    exact PendingTransaction.pays_of_other hselect his (congrArg AccountEffect.taken htaken)
  · have his : ¬i.IsWithdraw := by
      rw [Intention.IsWithdraw, hparse, hregister]
      simp
    exact PendingTransaction.pays_of_other hselect his (congrArg AccountEffect.taken htaken)
  · have hshape := hbasis.shape
    rw [hwithdraw, Intention.hasShape_withdraw_iff] at hshape
    obtain ⟨htoken, hinputs, value, houtputs⟩ := hshape
    have hstaged : prepared.plan.staged.token = s.rules.rewardToken :=
      (Pool.succeeds_of_stage hbasis.staged).token.trans htoken
    rw [hstaged, hbasis.initiator] at htaken
    have his : i.IsWithdraw := by rw [Intention.IsWithdraw, hparse, hwithdraw]
    refine ⟨⟨i, hselect, ?_⟩, ?_⟩
    · rw [Intention.payout, if_pos his, ← hout]
      exact congrArg AccountEffect.taken htaken
    · intro other hsame _
      obtain rfl := Except.ok.inj (hselect.symm.trans hsame)
      refine ⟨?_, _, htaken, rfl, ?_⟩
      · have hin := hbasis.inflow
        rw [Intention.inputCoins, hinputs] at hin
        exact (Except.ok.inj hin).symm
      · intro id hid
        apply BitVec.eq_of_toNat_eq
        have hid' : (prepared.plan.outflow.amountOf id).toNat = 0 := by
          rw [hout, Intention.outputCoins, houtputs]
          simp [Coin.total, Ne.symm hid]
        exact hid'

/-- Every pending transaction takes and pays what its intention asks for. -/
def Paying (s : Settlement) : Prop :=
  ∀ p slot, s.pendingOn? p = some slot → slot.Pays s.rules.rewardToken

theorem paying_after (rules : Rules) (accounts : AccountBook) (capacity : Nat)
    (calls : List Call) : ((create rules accounts capacity).after calls).Paying := by
  intro p slot hslot
  obtain ⟨_, _, _, _, hrules, hchecked, rfl⟩ := exists_prepare_of_pendingOn? hslot
  have hpays := pays_of_prepare hchecked
  rw [hrules] at hpays
  rw [rules_after]
  exact hpays

end Settlement

end RuneSettlement
