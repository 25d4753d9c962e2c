import RuneSettlement.Proofs.Commitment
import RuneSettlement.Proofs.Payouts

/-!
# Conservation of rewards

A reward is accrued to an account, claimed into what the account may withdraw, and paid out when a
withdrawal is committed. Accounts hold what has been accrued less what has been paid out
(`AccountBook.Backed`), and no more is ever accrued than the cap, so no account can overflow
(`Session.rewards_conserved`).
-/

namespace RuneSettlement

/-- The rewards of an account, claimed or not. -/
def Account.balance (a : Account) : Nat := a.rewards.toNat + a.withdrawable.toNat

namespace AccountBook

variable {b b' : AccountBook} {id : Address} {cap : Amount} {accrued paid : Nat}

/-- The rewards of all accounts. -/
def holdings (b : AccountBook) : Nat := (b.accounts.values.map Account.balance).sum

lemma holdings_eq_add_erase (b : AccountBook) (id : Address) :
    b.holdings = (b.get? id).elim 0 Account.balance +
      ((b.accounts.erase id).values.map Account.balance).sum := by
  cases hfound : b.get? id with
  | none => rw [SortedMap.erase_of_get? hfound, Option.elim_none, Nat.zero_add, holdings]
  | some account =>
    have hperm := (SortedMap.perm_entries_erase hfound).map Prod.snd
    rw [holdings, SortedMap.values, (hperm.map Account.balance).sum_nat]
    rfl

/-- Filing an account adds its balance and takes away that of the account in its place. -/
lemma holdings_insert {account : Account} (hb' : b'.accounts = b.accounts.insert id account) :
    b'.holdings + (b.get? id).elim 0 Account.balance = b.holdings + account.balance := by
  have hperm := SortedMap.perm_values_insert account (b.accounts.get?_erase_self id)
  rw [SortedMap.insert_erase] at hperm
  have hnext : b'.holdings =
      account.balance + ((b.accounts.erase id).values.map Account.balance).sum := by
    rw [holdings, hb', (hperm.map Account.balance).sum_nat]
    rfl
  have hprevious := b.holdings_eq_add_erase id
  omega

lemma holdings_store (b : AccountBook) (account : Account) :
    (b.store account).holdings + (b.get? account.id).elim 0 Account.balance =
      b.holdings + account.balance := holdings_insert rfl

lemma balance_le_holdings {account : Account} (hfound : b.get? id = some account) :
    account.balance ≤ b.holdings := by
  rw [b.holdings_eq_add_erase id, hfound]
  exact Nat.le_add_right _ _

lemma toNat_remainingRewards (b : AccountBook) :
    b.remainingRewards.toNat = b.maxRewards.toNat - b.accrued.toNat :=
  Word.toNat_ofNat_of_le (Nat.le_trans (Nat.sub_le _ _) (Word.toNat_le_greatest b.maxRewards))

/-- The accounts hold what has been accrued under the cap less what has been paid out. -/
structure Backed (b : AccountBook) (cap : Amount) (accrued paid : Nat) : Prop where
  maximum : b.maxRewards = cap
  total : b.accrued.toNat = accrued
  within : accrued ≤ cap.toNat
  balanced : b.holdings + paid = accrued

lemma Backed.accrue {amount balance : Amount} (hb : b.Backed cap accrued paid)
    (h : b.accrue id amount = .ok (balance, b')) :
    b'.Backed cap (accrued + amount.toNat) paid := by
  obtain ⟨account, total, hfound, hwithin, htotal, hbalance, hb'⟩ := accrue_eq_ok_iff.1 h
  obtain ⟨rfl, rfl, hunder, hbalanced⟩ := hb
  have hholdings := holdings_insert (congrArg AccountBook.accounts hb')
  rw [hfound, Option.elim_some, Account.balance, Account.balance] at hholdings
  rw [toNat_remainingRewards] at hwithin
  refine ⟨?_, ?_, ?_, ?_⟩
  · rw [hb']
  · rw [hb']
    exact htotal
  · omega
  · dsimp only at hholdings
    omega

lemma Backed.claim {amount : Amount} {now : Timestamp} (hb : b.Backed cap accrued paid)
    (hfiled : b.Filed) (h : b.claim id now = .ok (amount, b')) : b'.Backed cap accrued paid := by
  obtain ⟨account, withdrawable, hfound, -, rfl, -, hsum, hb'⟩ := claim_eq_ok_iff.1 h
  obtain ⟨rfl, rfl, hunder, hbalanced⟩ := hb
  obtain rfl := hfiled id account hfound
  have hholdings := holdings_insert (congrArg AccountBook.accounts hb')
  rw [hfound, Option.elim_some, Account.balance, Account.balance] at hholdings
  refine ⟨?_, ?_, hunder, ?_⟩
  · rw [hb']
    rfl
  · rw [hb']
    rfl
  · simp only [BitVec.toNat_ofNat, Nat.zero_mod] at hholdings
    omega

/-- An effect that takes place pays out what it takes. -/
lemma Backed.settle {effect : AccountEffect} {account? : Option Account} {now : Timestamp}
    (hb : b.Backed cap accrued paid) (hfiled : b.Filed)
    (h : b.preview effect now = .ok account?) :
    (account?.elim b b.store).Backed cap accrued (paid + effect.taken) := by
  cases effect with
  | none =>
    cases h
    exact hb
  | register id =>
    obtain ⟨habsent, rfl⟩ := preview_register_eq_ok_iff.1 h
    have hholdings := b.holdings_store (.create id now)
    rw [Account.create, habsent] at hholdings
    exact ⟨hb.maximum, hb.total, hb.within, (congrArg (· + paid) hholdings).trans hb.balanced⟩
  | withdraw id amount =>
    obtain ⟨account, withdrawable, hfound, hrest, rfl⟩ := preview_withdraw_eq_ok_iff.1 h
    obtain rfl := hfiled id account hfound
    have hholdings := b.holdings_store { account with withdrawable, lastAction := some now }
    rw [hfound, Option.elim_some, Account.balance, Account.balance] at hholdings
    refine ⟨hb.maximum, hb.total, hb.within, ?_⟩
    have hbalanced := hb.balanced
    rw [Option.elim_some, AccountEffect.taken]
    dsimp only at hholdings
    omega

/-- Whatever is accrued, the total and every balance fit below the cap. -/
lemma Backed.accrue_ne_overflow (hb : b.Backed cap accrued paid) (id : Address) (amount : Amount) :
    b.accrue id amount ≠ .error .overflow := by
  intro h
  obtain ⟨rfl, rfl, hunder, hbalanced⟩ := hb
  have hcap := Word.toNat_le_greatest b.maxRewards
  simp only [AccountBook.accrue, require, Outcome.bind_eq_error_iff, Outcome.unless_eq_error_iff,
    Outcome.ofOption_eq_error_iff, Outcome.ofOption_eq_ok_iff, Nat.not_lt, reduceCtorEq, and_false,
    false_or] at h
  obtain ⟨account, hfound, hwithin, h⟩ := h
  have hbalance := balance_le_holdings hfound
  rw [Account.balance] at hbalance
  rw [toNat_remainingRewards] at hwithin
  rcases h with h | ⟨total, -, h | ⟨balance, -, h⟩⟩
  · obtain ⟨total, htotal⟩ := Quantity.exists_add_eq_ok (a := b.accrued) (b := amount) (by omega)
    rw [htotal] at h
    cases h
  · obtain ⟨balance, hadd⟩ := Quantity.exists_add_eq_ok (a := account.rewards) (b := amount)
      (by omega)
    rw [hadd] at h
    cases h
  · cases h

lemma Backed.claim_ne_overflow (hb : b.Backed cap accrued paid) (id : Address) (now : Timestamp) :
    b.claim id now ≠ .error .overflow := by
  intro h
  obtain ⟨rfl, rfl, hunder, hbalanced⟩ := hb
  have hcap := Word.toNat_le_greatest b.maxRewards
  simp only [AccountBook.claim, require, Outcome.bind_eq_error_iff, Outcome.unless_eq_error_iff,
    Outcome.ofOption_eq_error_iff, Outcome.ofOption_eq_ok_iff, reduceCtorEq, and_false,
    false_or] at h
  obtain ⟨account, hfound, h | ⟨_, -, -, h | ⟨withdrawable, -, h⟩⟩⟩ := h
  · unfold Account.checkCooldown at h
    split at h
    · split at h <;> cases h
    · cases h
  · have hbalance := balance_le_holdings hfound
    rw [Account.balance] at hbalance
    obtain ⟨withdrawable, hadd⟩ :=
      Quantity.exists_add_eq_ok (a := account.withdrawable) (b := account.rewards) (by omega)
    rw [hadd] at h
    cases h
  · cases h

end AccountBook

namespace Settlement

variable {s s' : Settlement} {call : Call} {answer : Outcome Receipt}

/-- The transaction that a step has committed, on whatever pool. -/
def Step.committed? (step : Step) : Option PendingTransaction :=
  match step.call with
  | .finalize _ poolKey _ =>
    (step.before.registry.addressForKey poolKey).toOption.bind fun pool => step.committedOn? pool
  | _ => none

/-- The rewards that a step has accrued. -/
def Step.accrued (step : Step) : Nat :=
  match step.call, step.answer with
  | .accrue _ amount, .ok _ => amount.toNat
  | _, _ => 0

def committed (steps : List Step) : List PendingTransaction := steps.filterMap Step.committed?

def accruedIn (steps : List Step) : Nat := (steps.map Step.accrued).sum

/-- What the intentions pay out as withdrawals. -/
def paidOut (token : CoinId) (intentions : List Intention) : Nat :=
  (intentions.map (Intention.payout token)).sum

/-- From `s` to `s'` an amount has gone from what an account may withdraw and from the reserves of
a pool, and neither other accounts nor other assets of the pool have changed. -/
structure PaysOut (s s' : Settlement) (p account : Address) (token : CoinId) (amount : Nat) :
    Prop where
  withdrawable : ∃ before after, s.accounts.get? account = some before ∧
    s'.accounts.get? account = some after ∧ after.rewards = before.rewards ∧
    before.withdrawable.toNat = after.withdrawable.toNat + amount
  accounts : ∀ id, id ≠ account → s'.accounts.get? id = s.accounts.get? id
  reserves : ((s.reservesOn p).amountOf token).toNat =
    ((s'.reservesOn p).amountOf token).toNat + amount
  assets : ∀ id, id ≠ token → (s'.reservesOn p).amountOf id = (s.reservesOn p).amountOf id

lemma committed?_of_committed {text poolKey : String} {now : Timestamp} {p : Address}
    {slot : PendingTransaction} (named : Txid.parse text = .ok slot.txid)
    (keyed : s.registry.addressForKey poolKey = .ok p) (pending : s.pendingOn? p = some slot) :
    Step.committed? ⟨s, .finalize text poolKey now, .ok .done⟩ = some slot := by
  simp [Step.committed?, Step.committedOn?, keyed, pending, named, Except.toOption]

lemma committed?_of_settled {text poolKey : String} {now : Timestamp} {p : Address} {id : Txid}
    (named : Txid.parse text = .ok id) (keyed : s.registry.addressForKey poolKey = .ok p)
    (settled : s.isPending p id = false) :
    Step.committed? ⟨s, .finalize text poolKey now, answer⟩ = none := by
  simp only [Step.committed?, keyed, Except.toOption, Option.bind_some]
  exact committedOn?_of_settled named keyed settled p

/-- Only a commit has committed a transaction. -/
lemma Moves.of_committed? {slot : PendingTransaction} (h : Moves s call answer s')
    (hslot : Step.committed? ⟨s, call, answer⟩ = some slot) :
    ∃ p now account?, (∃ text poolKey, call = .finalize text poolKey now) ∧
      s.pendingOn? p = some slot ∧ s.accounts.preview slot.effect now = .ok account? ∧
      s'.accounts = account?.elim s.accounts s.accounts.store ∧
      s.registry.commit slot.staged = .ok s'.registry := by
  cases h with
  | refused =>
    cases call <;> simp [Step.committed?, Step.committedOn?] at hslot
  | committed named keyed pending _ previewed next _ =>
    rw [committed?_of_committed named keyed pending] at hslot
    cases hslot
    exact ⟨_, _, _, ⟨_, _, rfl⟩, pending, previewed, rfl, next⟩
  | recommitted named keyed settled =>
    rw [committed?_of_settled named keyed settled] at hslot
    cases hslot
  | _ => cases hslot

/-- A withdrawal that is committed takes from its initiator just what its pool loses. -/
lemma Moves.paysOut {slot : PendingTransaction} {i : Intention} (h : Moves s call answer s')
    (hs : s.Consistent) (hfiled : s.accounts.Filed) (hpaying : s.Paying)
    (hslot : Step.committed? ⟨s, call, answer⟩ = some slot) (hi : slot.intention = .ok i)
    (hwithdraw : i.IsWithdraw) :
    PaysOut s s' slot.pool slot.set.initiator s.rules.rewardToken
      (i.payout s.rules.rewardToken) := by
  obtain ⟨p, now, account?, -, hpending, hpreview, haccounts, hcommit⟩ := h.of_committed? hslot
  obtain ⟨_, hreplan⟩ := hs.slots p slot hpending
  obtain rfl : slot.pool = p := hreplan.pool
  obtain ⟨⟨j, hj, htaken⟩, hpays⟩ := hpaying slot.pool slot hpending
  obtain rfl := Except.ok.inj (hi.symm.trans hj)
  obtain ⟨hinflow, amount, heffect, hamount, hothers⟩ := hpays i hi hwithdraw
  rw [heffect, AccountEffect.taken] at htaken
  have hstored : s'.reservesOn slot.pool = slot.staged.reserves := by
    obtain ⟨_, -, -, -, hnext⟩ := Registry.commit_eq_ok_iff.1 hcommit
    apply reservesOn_eq
    rw [hnext, Registry.get?_insert, if_pos hreplan.staged]
  have hamounts := (hs.leads hpending).amounts
  simp only [hinflow, Reserves.amountOf_empty, BitVec.toNat_ofNat, Nat.zero_mod, Nat.add_zero]
    at hamounts
  rw [heffect] at hpreview
  obtain ⟨account, withdrawable, hfound, hrest, rfl⟩ :=
    AccountBook.preview_withdraw_eq_ok_iff.1 hpreview
  have hid := hfiled _ account hfound
  have hget : ∀ id, s'.accounts.get? id =
      if slot.set.initiator = id then
        some { account with withdrawable, lastAction := some now }
      else s.accounts.get? id := by
    intro id
    rw [haccounts, Option.elim_some, AccountBook.get?_store, hid]
  refine ⟨⟨account, _, hfound, (hget _).trans (if_pos rfl), rfl, ?_⟩, ?_, ?_, ?_⟩
  · dsimp only
    omega
  · intro id hne
    rw [hget, if_neg (Ne.symm hne)]
  · have htoken := hamounts s.rules.rewardToken
    rw [hstored]
    omega
  · intro id hne
    have hkept := hamounts id
    rw [hothers id hne] at hkept
    rw [hstored]
    exact BitVec.eq_of_toNat_eq hkept

variable {cap : Amount} {total paid : Nat}

/-- A move accrues and pays out what its step says. -/
lemma Moves.backed (h : Moves s call answer s') (hfiled : s.accounts.Filed) (hpaying : s.Paying)
    (hb : s.accounts.Backed cap total paid) :
    ∃ intentions : List Intention,
      (Step.committed? ⟨s, call, answer⟩).toList.map PendingTransaction.intention =
        intentions.map .ok ∧
      s'.accounts.Backed cap (total + Step.accrued ⟨s, call, answer⟩)
        (paid + paidOut s.rules.rewardToken intentions) := by
  cases hslot : Step.committed? ⟨s, call, answer⟩ with
  | some slot =>
    obtain ⟨p, now, account?, -, hpending, hpreview, haccounts, -⟩ := h.of_committed? hslot
    obtain ⟨⟨i, hi, htaken⟩, -⟩ := hpaying p slot hpending
    have hnone : Step.accrued ⟨s, call, answer⟩ = 0 := by
      cases call with
      | accrue => cases hslot
      | _ => rfl
    refine ⟨[i], by simp [hi], ?_⟩
    rw [haccounts, hnone, Nat.add_zero, paidOut, List.map_singleton, List.sum_singleton, ← htaken]
    exact hb.settle hfiled hpreview
  | none =>
    refine ⟨[], rfl, ?_⟩
    cases h with
    | refused =>
      cases call <;> exact hb
    | committed named keyed pending =>
      rw [committed?_of_committed named keyed pending] at hslot
      cases hslot
    | claimed due => exact hb.claim hfiled due
    | accrued within => exact hb.accrue within
    | _ => exact hb

section Run

variable (config : Config) (calls : List Call)

lemma filed_after : ((ofConfig config).after calls).accounts.Filed :=
  (effectsStand_after config.rules config.resolutionLogCapacity.toNat calls
    (fun _ _ hfound => by cases hfound)).filed

lemma committed_concat (s : Settlement) (calls : List Call) (call : Call) :
    committed (s.trace (calls ++ [call])) = committed (s.trace calls) ++
      (Step.committed? ⟨s.after calls, call, ((s.after calls).perform call).1⟩).toList := by
  rw [trace_concat, committed, committed, List.filterMap_append]
  cases h : Step.committed? ⟨s.after calls, call, ((s.after calls).perform call).1⟩ <;> simp [h]

lemma accruedIn_concat (s : Settlement) (calls : List Call) (call : Call) :
    accruedIn (s.trace (calls ++ [call])) = accruedIn (s.trace calls) +
      Step.accrued ⟨s.after calls, call, ((s.after calls).perform call).1⟩ := by
  rw [trace_concat, accruedIn, accruedIn, List.map_append, List.sum_append, List.map_singleton,
    List.sum_singleton]

lemma paidOut_append (token : CoinId) (intentions later : List Intention) :
    paidOut token (intentions ++ later) = paidOut token intentions + paidOut token later := by
  rw [paidOut, List.map_append, List.sum_append, paidOut, paidOut]

theorem backed_after :
    ∃ intentions : List Intention,
      (committed ((ofConfig config).trace calls)).map PendingTransaction.intention =
        intentions.map .ok ∧
      ((ofConfig config).after calls).accounts.Backed config.maxRewards
        (accruedIn ((ofConfig config).trace calls)) (paidOut config.runeId intentions) := by
  induction calls using List.reverseRecOn with
  | nil => exact ⟨[], rfl, rfl, rfl, Nat.zero_le _, rfl⟩
  | append_singleton calls call ih =>
    obtain ⟨intentions, hcommitted, hbacked⟩ := ih
    have hpaying := paying_after config.rules config.accountBook
      config.resolutionLogCapacity.toNat calls
    have hrules : ((ofConfig config).after calls).rules.rewardToken = config.runeId :=
      congrArg Rules.rewardToken (rules_after (ofConfig config) calls)
    obtain ⟨more, hmore, hnext⟩ :=
      (moves_perform _ call).backed (filed_after config calls) hpaying hbacked
    rw [hrules] at hnext
    refine ⟨intentions ++ more, ?_, ?_⟩
    · rw [committed_concat, List.map_append, hcommitted, hmore, List.map_append]
    · rw [accruedIn_concat, paidOut_append, after_concat]
      exact hnext

/-- Every withdrawal of a run takes from its initiator just what its pool loses. -/
theorem paysOut_of_mem_trace {step : Step} {slot : PendingTransaction} {i : Intention}
    (hstep : step ∈ (ofConfig config).trace calls) (hslot : step.committed? = some slot)
    (hi : slot.intention = .ok i) (hwithdraw : i.IsWithdraw) :
    PaysOut step.before (step.before.perform step.call).2 slot.pool slot.set.initiator
      config.runeId (i.payout config.runeId) := by
  obtain ⟨earlier, later, -, hbefore, hanswer⟩ := exists_split_of_mem_trace hstep
  have hmove := moves_perform step.before step.call
  rw [← hanswer] at hmove
  have hrules : step.before.rules.rewardToken = config.runeId := by
    rw [hbefore, rules_after]
    rfl
  have hconsistent : step.before.Consistent := by
    rw [hbefore]
    exact consistent_after _ _ _ earlier
  have hfiled : step.before.accounts.Filed := by
    rw [hbefore]
    exact filed_after config earlier
  have hpaying : step.before.Paying := by
    rw [hbefore]
    exact paying_after _ _ _ earlier
  rw [← hrules]
  exact hmove.paysOut hconsistent hfiled hpaying hslot hi hwithdraw

end Run

end Settlement

namespace Exchange

variable {e : Exchange} {account : Address} {refusal : Refusal} {now : Timestamp}

lemma begin_accrue_refused_iff {amount : Amount} :
    (e.begin (.accrue account amount) now).1 = .answered (.error refusal) ↔
      e.settlement.accounts.accrue account amount = .error refusal := by
  simp only [begin, answerBy, settle_eq, Settlement.accrue, Settlement.run_bind,
    Settlement.run_get, Settlement.run_ofOutcome, Settlement.run_set, Settlement.run_pure]
  cases e.settlement.accounts.accrue account amount <;> simp [Except.map]

lemma begin_claim_refused_iff :
    (e.begin (.claim account) now).1 = .answered (.error refusal) ↔
      e.settlement.accounts.claim account now = .error refusal := by
  simp only [begin, answerBy, settle_eq, Settlement.claim, Settlement.run_bind,
    Settlement.run_get, Settlement.run_ofOutcome, Settlement.run_set, Settlement.run_pure]
  cases e.settlement.accounts.claim account now <;> simp [Except.map]

end Exchange

namespace Session

namespace Sample

open Settlement.Sample (txid token legA legB)

def uncooled : Config := { config with claimCooldown := 0#64 }

/-- Pays the register fee and moves the pool's first output on. -/
def register : Intention :=
  let fee := Coin.native config.registerFee
  { swap 0#64 legA.outpoint ⟨txid 2, 0#32⟩ fee fee with action := "register", outputs := [] }

def withdraw (value : Amount) : Intention :=
  let payout := Coin.mk token value
  { swap 1#64 ⟨txid 2, 0#32⟩ ⟨txid 3, 0#32⟩ payout payout with action := "withdraw", inputs := [] }

/-- An account is registered, accrues and claims rewards, and is paid. -/
def rewarding : List Event :=
  whole 0 (.createPool "name" token 100#128 "") 2 ++
  whole 1 (.deposit "pool" legA legB) 2 ++
  whole 2 (execute (txid 2) register) 2 ++
  whole 3 (.finalize ⟨(txid 2).text, "untweaked"⟩) 0 ++
  whole 4 (.accrue "trader" 9#128) 0 ++
  whole 5 (.claim "trader") 0 ++
  whole 6 (execute (txid 3) (withdraw 9#128)) 2 ++
  whole 7 (.accrue "trader" 4#128) 0 ++
  whole 8 (.finalize ⟨(txid 3).text, "untweaked"⟩) 0

end Sample

/-- Rewards are conserved. After every session the accounts hold, with what the committed
withdrawals have paid out, just what has ever been accrued, and what may still be accrued makes up
the rest of the cap. So no accrual and no claim ever overflows, and every committed withdrawal takes
from its initiator just what its pool loses. -/
theorem rewards_conserved (config : Config) (events : List Event) :
    let e := ((start config).after events).exchange
    let steps := (Settlement.ofConfig config).trace ((start config).settlementCalls events)
    (∃ intentions : List Intention,
      (Settlement.committed steps).map PendingTransaction.intention = intentions.map .ok ∧
      e.settlement.accounts.holdings + Settlement.paidOut config.runeId intentions =
        Settlement.accruedIn steps) ∧
    Settlement.accruedIn steps + e.settlement.accounts.remainingRewards.toNat =
      config.maxRewards.toNat ∧
    (∀ account amount now,
      (e.begin (.accrue account amount) now).1 ≠ .answered (.error .overflow)) ∧
    (∀ account now, (e.begin (.claim account) now).1 ≠ .answered (.error .overflow)) ∧
    ∀ step ∈ steps, ∀ slot i, step.committed? = some slot → slot.intention = .ok i →
      i.IsWithdraw →
      Settlement.PaysOut step.before (step.before.perform step.call).2 slot.pool
        slot.set.initiator config.runeId (i.payout config.runeId) := by
  intro e steps
  obtain ⟨intentions, hcommitted, hbacked⟩ :=
    Settlement.backed_after config ((start config).settlementCalls events)
  rw [← settlement_after] at hbacked
  refine ⟨⟨intentions, hcommitted, hbacked.balanced⟩, ?_, ?_, ?_, ?_⟩
  · have hremaining := e.settlement.accounts.toNat_remainingRewards
    rw [hbacked.maximum, hbacked.total] at hremaining
    rw [hremaining]
    exact Nat.add_sub_cancel' hbacked.within
  · intro account amount now hanswer
    exact hbacked.accrue_ne_overflow account amount (Exchange.begin_accrue_refused_iff.1 hanswer)
  · intro account now hanswer
    exact hbacked.claim_ne_overflow account now (Exchange.begin_claim_refused_iff.1 hanswer)
  · intro step hstep slot i hslot hi hwithdraw
    exact Settlement.paysOut_of_mem_trace config _ hstep hslot hi hwithdraw

theorem rewards_conserved_sample :
    ∃ step ∈ (Settlement.ofConfig Sample.uncooled).trace
        ((start Sample.uncooled).settlementCalls Sample.rewarding),
      ∃ slot, step.committed? = some slot ∧
        Settlement.PaysOut step.before (step.before.perform step.call).2 slot.pool
          slot.set.initiator Sample.uncooled.runeId 9 := by
  obtain ⟨step, hstep, hpaid⟩ :
      ∃ step ∈ (Settlement.ofConfig Sample.uncooled).trace
          ((start Sample.uncooled).settlementCalls Sample.rewarding),
        step.committed?.any fun slot =>
          decide (slot.intention = .ok (Sample.withdraw 9#128)) := by
    decide +kernel
  obtain ⟨slot, hslot, hi⟩ := (Option.any_eq_true _ _).1 hpaid
  obtain ⟨hwithdraw, hpayout⟩ : (Sample.withdraw 9#128).IsWithdraw ∧
      (Sample.withdraw 9#128).payout Sample.uncooled.runeId = 9 := by
    decide +kernel
  obtain ⟨-, -, -, -, hpays⟩ := rewards_conserved Sample.uncooled Sample.rewarding
  have hpaid := hpays step hstep slot _ hslot (of_decide_eq_true hi) hwithdraw
  rw [hpayout] at hpaid
  exact ⟨step, hstep, slot, hslot, hpaid⟩

end Session

end RuneSettlement
