import Mathlib.Data.List.Pairwise
import RuneSettlement.Proofs.Causes
import RuneSettlement.Proofs.Registrations

/-!
# Cooldowns

A claim stamps its account at once, a withdrawal when it is committed, and both are let through only
a cooldown after the stamp. The stamp of an account is the moment of its last action
(`Settlement.lastAction_after`), and where the clock never goes back no other action is later. So an
action keeps its distance from all before it, and who is refused for a cooldown has acted within it
(`Settlement.cooldown_kept`).
-/

namespace RuneSettlement

/-- Whether an intention of the set is a withdrawal by an account. -/
def IntentionSet.withdraws (set : IntentionSet) (index : BitVec 32) (account : Address) : Bool :=
  decide (set.initiator = account) && (set.select index).toOption.any fun i => decide i.IsWithdraw

lemma IntentionSet.withdraws_iff {set : IntentionSet} {index : BitVec 32} {i : Intention}
    {account : Address} (hi : set.select index = .ok i) :
    set.withdraws index account = true ↔ set.initiator = account ∧ i.IsWithdraw := by
  simp [withdraws, hi, Except.toOption]

lemma Plan.isWithdraw_effect_iff {plan : Plan} {account : Address} :
    plan.effect.account? = some account ∧ plan.effect.isWithdraw = true ↔
      plan.initiator = account ∧ plan.action = .withdraw := by
  unfold effect
  cases plan.action <;> simp [AccountEffect.account?, AccountEffect.isWithdraw]

/-! ### Accounts -/

/-- The end of the cooldown after a moment, the last moment there is at most. -/
def readyAfter (cooldown : Seconds) (moment : Timestamp) : Nat :=
  min (moment.toNat + cooldown.toNat) (2 ^ 64 - 1)

namespace Account

variable {a : Account} {cooldown : Seconds} {now : Timestamp}

lemma toNat_ofNatCapped_add (moment : Timestamp) (cooldown : Seconds) :
    (Word.ofNatCapped 64 (moment.toNat + cooldown.toNat)).toNat = readyAfter cooldown moment := by
  rw [Word.toNat_ofNatCapped, Word.greatest, BitVec.toNat_allOnes, readyAfter]

lemma checkCooldown_eq_ok_iff :
    a.checkCooldown cooldown now = .ok () ↔
      ∀ last, a.lastAction = some last → readyAfter cooldown last ≤ now.toNat := by
  unfold checkCooldown nextActionAt
  cases a.lastAction with
  | none => simp
  | some last =>
    have hready := toNat_ofNatCapped_add last cooldown
    dsimp only [Option.map_some]
    split
    · next hearly =>
      rw [hready] at hearly
      simp only [reduceCtorEq, Option.some.injEq, forall_eq', false_iff]
      omega
    · next hlate =>
      rw [hready] at hlate
      simp only [Option.some.injEq, forall_eq', true_iff]
      omega

lemma checkCooldown_eq_error_iff {refusal : Refusal} :
    a.checkCooldown cooldown now = .error refusal ↔
      ∃ last readyAt, a.lastAction = some last ∧ refusal = .coolingDown a.id readyAt ∧
        readyAt.toNat = readyAfter cooldown last ∧ now.toNat < readyAt.toNat := by
  unfold checkCooldown nextActionAt
  cases a.lastAction with
  | none => simp
  | some last =>
    have hready := toNat_ofNatCapped_add last cooldown
    dsimp only [Option.map_some]
    constructor
    · intro h
      split at h
      · next hearly =>
        cases h
        exact ⟨last, _, rfl, rfl, hready, hearly⟩
      · cases h
    · rintro ⟨_, readyAt, hlast, rfl, hsame, hearly⟩
      cases hlast
      obtain rfl : readyAt = _ := BitVec.eq_of_toNat_eq (hsame.trans hready.symm)
      rw [if_pos hearly]

end Account

namespace AccountBook

variable {b b' : AccountBook} {id : Address} {now : Timestamp}

/-- The moment of the last action of an account. -/
def lastAction? (b : AccountBook) (id : Address) : Option Timestamp :=
  (b.get? id).bind (·.lastAction)

/-- No account has acted yet. -/
structure Fresh (b : AccountBook) : Prop where
  filed : b.Filed
  idle : ∀ id account, b.get? id = some account → account.lastAction = none

lemma fresh_create (cooldown : Seconds) (maxRewards : Amount) :
    (create cooldown maxRewards).Fresh where
  filed := fun _ _ hfound => by cases hfound
  idle := fun _ _ hfound => by cases hfound

lemma Fresh.lastAction? (hb : b.Fresh) (id : Address) : b.lastAction? id = none := by
  unfold AccountBook.lastAction?
  cases hfound : b.get? id with
  | none => rfl
  | some account => exact hb.idle id account hfound

lemma Filed.lastAction?_of_claim {amount : Amount} (hb : b.Filed)
    (h : b.claim id now = .ok (amount, b')) (other : Address) :
    b'.lastAction? other = if id = other then some now else b.lastAction? other := by
  obtain ⟨account, withdrawable, -, -, hget⟩ := hb.get?_of_claim h
  rw [lastAction?, hget]
  split
  · rfl
  · rfl

lemma lastAction?_of_accrue {amount balance : Amount} (h : b.accrue id amount = .ok (balance, b'))
    (other : Address) : b'.lastAction? other = b.lastAction? other := by
  obtain ⟨account, hfound, hget⟩ := get?_of_accrue h
  rw [lastAction?, hget]
  split
  · next hid => rw [lastAction?, ← hid, hfound, Option.bind_some, Option.bind_some]
  · rfl

/-- Of the effects that take place only withdrawals stamp an account. -/
lemma Filed.lastAction?_of_preview {effect : AccountEffect} {account? : Option Account}
    (hb : b.Filed) (h : b.preview effect now = .ok account?) (other : Address) :
    (account?.elim b b.store).lastAction? other =
      if effect.account? = some other ∧ effect.isWithdraw = true then some now
      else b.lastAction? other := by
  have hnames := hb.account?_of_preview h
  rw [lastAction?, get?_elim_store, ← hnames]
  cases effect with
  | none => rfl
  | register id =>
    obtain ⟨habsent, rfl⟩ := preview_register_eq_ok_iff.1 h
    by_cases hid : id = other
    · subst hid
      simp [AccountEffect.account?, AccountEffect.isWithdraw, Account.create, lastAction?, habsent]
    · simp [AccountEffect.account?, hid, lastAction?]
  | withdraw id amount =>
    obtain ⟨account, withdrawable, -, -, rfl⟩ := preview_withdraw_eq_ok_iff.1 h
    by_cases hid : id = other
    · simp [AccountEffect.account?, AccountEffect.isWithdraw, hid]
    · simp [AccountEffect.account?, hid, lastAction?]

end AccountBook

namespace Settlement

/-- The moment at which a call is made, where it depends on it. -/
def Call.now? : Call → Option Timestamp
  | .execute _ _ now | .finalize _ _ now | .claim _ now => some now
  | _ => none

/-- The clock does not go back from one call to a later one. -/
def InOrder (calls : List Call) : Prop :=
  (calls.filterMap Call.now?).Pairwise fun earlier later => earlier.toNat ≤ later.toNat

/-- Whether a call asks to claim the rewards of an account or to execute a withdrawal by it. -/
def Call.seeks (call : Call) (account : Address) : Bool :=
  match call with
  | .claim id _ => decide (id = account)
  | .execute request _ _ => request.set.withdraws request.index account
  | _ => false

/-- The moment at which a step has claimed the rewards of an account or committed a withdrawal by
it. -/
def Step.actedAt? (step : Step) (account : Address) : Option Timestamp :=
  match step.call, step.answer with
  | .claim id now, .ok _ => if id = account then some now else none
  | .finalize _ _ now, .ok _ =>
    if step.committed?.any (fun slot => slot.set.withdraws slot.index account) then some now
    else none
  | _, _ => none

/-- The moments at which the steps have claimed the rewards of an account or committed a withdrawal
by it. -/
def actionsOf (steps : List Step) (account : Address) : List Timestamp :=
  steps.filterMap (·.actedAt? account)

variable {s s' : Settlement} {call : Call} {answer : Outcome Receipt} {account : Address}
  {now readyAt : Timestamp}

/-! ### The stamp of an account -/

lemma actedAt?_claim (s : Settlement) (id : Address) (now : Timestamp) (receipt : Receipt)
    (account : Address) :
    Step.actedAt? ⟨s, .claim id now, .ok receipt⟩ account =
      if id = account then some now else none := rfl

lemma actedAt?_finalize (s : Settlement) (txid poolKey : String) (now : Timestamp)
    (receipt : Receipt) (account : Address) :
    let step : Step := ⟨s, .finalize txid poolKey now, .ok receipt⟩
    step.actedAt? account =
      if step.committed?.any (fun slot => slot.set.withdraws slot.index account) then some now
      else none := rfl

lemma withdraws_iff_of_prepare {request : ExecuteRequest} {prepared : Prepared}
    (h : s.prepare request now = .ok prepared) (account : Address) :
    request.set.withdraws request.index account = true ↔
      prepared.effect.account? = some account ∧ prepared.effect.isWithdraw = true := by
  obtain ⟨i, hselect, hparse, hinitiator, heffect⟩ := action_of_prepare h
  have hwithdraw : i.IsWithdraw ↔ prepared.plan.action = .withdraw := by
    rw [Intention.IsWithdraw, hparse, Except.ok.injEq]
  rw [IntentionSet.withdraws_iff hselect, heffect, Plan.isWithdraw_effect_iff, hinitiator,
    hwithdraw]

/-- Just the pending withdraw intentions have the effect that takes from their initiator. -/
def Withdrawing (s : Settlement) : Prop :=
  ∀ p slot account, s.pendingOn? p = some slot →
    (slot.set.withdraws slot.index account = true ↔
      slot.effect.account? = some account ∧ slot.effect.isWithdraw = true)

lemma withdrawing_after (rules : Rules) (accounts : AccountBook) (capacity : Nat)
    (calls : List Call) : ((create rules accounts capacity).after calls).Withdrawing := by
  intro p slot account hslot
  obtain ⟨_, _, _, _, -, hchecked, rfl⟩ := exists_prepare_of_pendingOn? hslot
  exact withdraws_iff_of_prepare hchecked account

lemma Moves.lastAction (h : Moves s call answer s') (hfiled : s.accounts.Filed)
    (hs : s.Withdrawing) (account : Address) :
    s'.accounts.lastAction? account =
      (Step.actedAt? ⟨s, call, answer⟩ account).or (s.accounts.lastAction? account) := by
  cases h with
  | refused => cases call <;> rfl
  | @committed _ _ now p slot _ _ _ named keyed pending balanced previewed =>
    rw [hfiled.lastAction?_of_preview previewed, actedAt?_finalize,
      committed?_of_committed named keyed pending, Option.any_some]
    simp only [hs p slot account pending]
    split
    · rfl
    · rfl
  | recommitted named keyed settled =>
    rw [actedAt?_finalize, committed?_of_settled named keyed settled]
    rfl
  | @claimed id now _ _ due =>
    rw [hfiled.lastAction?_of_claim due, actedAt?_claim]
    split
    · rfl
    · rfl
  | accrued within => exact AccountBook.lastAction?_of_accrue within account
  | _ => rfl

lemma actionsOf_append (steps later : List Step) (account : Address) :
    actionsOf (steps ++ later) account = actionsOf steps account ++ actionsOf later account :=
  List.filterMap_append

lemma actionsOf_singleton (step : Step) (account : Address) :
    actionsOf [step] account = (step.actedAt? account).toList := by
  cases h : step.actedAt? account <;> simp [actionsOf, h]

/-- The stamp of an account is the moment of the last of its actions. -/
theorem lastAction_after (rules : Rules) {accounts : AccountBook} (capacity : Nat)
    (calls : List Call) (hfresh : accounts.Fresh) (account : Address) :
    let s := create rules accounts capacity
    (s.after calls).accounts.lastAction? account =
      (actionsOf (s.trace calls) account).getLast? := by
  intro s
  induction calls using List.reverseRecOn with
  | nil => exact hfresh.lastAction? account
  | append_singleton calls call ih =>
    have hfiled : (s.after calls).accounts.Filed :=
      (effectsStand_after rules capacity calls hfresh.filed).filed
    have hwithdrawing : (s.after calls).Withdrawing :=
      withdrawing_after rules accounts capacity calls
    rw [after_concat, (moves_perform _ call).lastAction hfiled hwithdrawing, trace_concat,
      actionsOf_append, actionsOf_singleton, List.getLast?_append, ih]
    generalize Step.actedAt? _ account = moment?
    cases moment? <;> rfl

/-! ### Calls in the order of the clock -/

lemma now?_of_actedAt? {step : Step} {moment : Timestamp}
    (h : step.actedAt? account = some moment) : step.call.now? = some moment := by
  unfold Step.actedAt? at h
  unfold Call.now?
  split at h
  · next hcall _ =>
    rw [hcall]
    split at h
    · exact h
    · cases h
  · next hcall _ =>
    rw [hcall]
    split at h
    · exact h
    · cases h
  · cases h

lemma actionsOf_sublist (s : Settlement) (calls : List Call) (account : Address) :
    (actionsOf (s.trace calls) account).Sublist (calls.filterMap Call.now?) := by
  induction calls generalizing s with
  | nil => exact .slnil
  | cons call calls ih =>
    rw [trace, ← List.singleton_append, actionsOf_append, actionsOf_singleton,
      ← List.singleton_append (l := calls), List.filterMap_append]
    refine List.Sublist.append ?_ (ih (s.perform call).2)
    cases hacted : Step.actedAt? ⟨s, call, (s.perform call).1⟩ account with
    | none => exact List.nil_sublist _
    | some moment =>
      have hnow : call.now? = some moment := now?_of_actedAt? hacted
      rw [List.filterMap_cons_some hnow]
      exact .refl _

/-- Where calls are made in order, no action is later than the last one. -/
lemma InOrder.le_last {calls : List Call} {last : Timestamp} (h : InOrder calls) (s : Settlement)
    (hlast : (actionsOf (s.trace calls) account).getLast? = some last) :
    ∀ moment ∈ actionsOf (s.trace calls) account, moment.toNat ≤ last.toNat := by
  have hordered := h.sublist (actionsOf_sublist s calls account)
  obtain ⟨earlier, hactions⟩ := List.getLast?_eq_some_iff.1 hlast
  rw [hactions, List.pairwise_append] at hordered
  obtain ⟨-, -, hle⟩ := hordered
  intro moment hmoment
  rw [hactions, List.mem_append, List.mem_singleton] at hmoment
  rcases hmoment with hmoment | rfl
  · exact hle moment hmoment last List.mem_cons_self
  · exact Nat.le_refl _

lemma InOrder.of_append {calls later : List Call} (h : InOrder (calls ++ later)) : InOrder calls :=
  h.sublist (List.Sublist.filterMap _ (List.sublist_append_left calls later))

/-! ### What the cooldown lets through -/

/-- An action that is let through finds its account cooled down. -/
lemma Moves.checkCooldown {receipt : Receipt} (h : Moves s call (.ok receipt) s')
    (hseeks : call.seeks account = true) :
    ∃ now found, call.now? = some now ∧ s.accounts.get? account = some found ∧
      found.checkCooldown s.accounts.cooldown now = .ok () := by
  cases h with
  | @staged request confirmed now prepared checked known =>
    obtain ⟨hnames, hwithdraw⟩ := (withdraws_iff_of_prepare checked account).1 hseeks
    cases heffect : prepared.effect with
    | withdraw id amount =>
      rw [heffect] at hnames
      cases hnames
      have hcheck := checkWithdraw_of_prepare checked heffect
      obtain ⟨found, hfound, hcool, -⟩ := AccountBook.checkWithdraw_eq_ok_iff.1 hcheck
      exact ⟨now, found, rfl, hfound, hcool⟩
    | none | register =>
      rw [heffect] at hwithdraw
      cases hwithdraw
  | @claimed id now _ _ due =>
    obtain rfl : id = account := of_decide_eq_true hseeks
    obtain ⟨found, _, hfound, hcool, -⟩ := AccountBook.claim_eq_ok_iff.1 due
    exact ⟨now, found, rfl, hfound, hcool⟩
  | _ => cases hseeks

/-- A claim and the check of a payout begin alike, with an account and its cooldown, and what
follows is not refused for one. -/
lemma exists_of_guard_cools {β : Type} {b : AccountBook} {id : Address} {rest : Account → Outcome β}
    (hrest : ∀ found, (rest found).NeverCools)
    (h : (do
        let found ← b.require id
        found.checkCooldown b.cooldown now
        rest found) = .error (.coolingDown account readyAt)) :
    ∃ found, b.get? id = some found ∧
      found.checkCooldown b.cooldown now = .error (.coolingDown account readyAt) := by
  obtain ⟨found, hfound, hguarded⟩ := (b.neverCools_require id).of_bind h
  have hcools := Outcome.eq_error_of_bind (fun _ => hrest found) hguarded
  exact ⟨found, Outcome.ofOption_eq_ok_iff.1 hfound, hcools⟩

lemma of_accountEffect_cools {plan : Plan}
    (h : s.accountEffect plan now = .error (.coolingDown account readyAt)) :
    plan.action = .withdraw ∧ ∃ found, s.accounts.get? plan.initiator = some found ∧
      found.checkCooldown s.accounts.cooldown now = .error (.coolingDown account readyAt) := by
  cases haction : plan.action with
  | swap | addLiquidity | register =>
    have hnever : (s.accountEffect plan now).NeverCools := by simp [accountEffect, haction]
    exact absurd h hnever.ne_error
  | withdraw =>
    simp only [accountEffect, haction, Outcome.unless_eq_error_iff, reduceCtorEq, and_false,
      false_or] at h
    have hcheck := Outcome.eq_error_of_bind (by simp) h.2
    exact ⟨rfl, exists_of_guard_cools (fun _ => by simp) hcheck⟩

lemma of_prepare_cools {request : ExecuteRequest} (hfiled : s.accounts.Filed)
    (h : s.prepare request now = .error (.coolingDown account readyAt)) :
    request.set.withdraws request.index account = true ∧
      ∃ found, s.accounts.get? account = some found ∧
        found.checkCooldown s.accounts.cooldown now = .error (.coolingDown account readyAt) := by
  obtain ⟨payload, -, h⟩ := (neverCools_decodePayload request.payload).of_bind h
  obtain ⟨txid, -, h⟩ := (Txid.neverCools_parse request.txid).of_bind h
  obtain ⟨i, hi, h⟩ := Outcome.NeverCools.of_bind (by simp [IntentionSet.select]) h
  obtain ⟨_, -, h⟩ := (s.neverCools_checkIdle i.pool).of_bind h
  obtain ⟨_, -, h⟩ := (s.neverCools_checkUnresolved i.pool txid).of_bind h
  obtain ⟨plan, hplan, h⟩ := Outcome.NeverCools.of_bind (by simp) h
  obtain ⟨haction, found, hfound, hcools⟩ :=
    of_accountEffect_cools (Outcome.eq_error_of_bind (by simp) h)
  obtain rfl : plan.initiator = account := by
    obtain ⟨_, _, -, hrefusal, -⟩ := Account.checkCooldown_eq_error_iff.1 hcools
    cases hrefusal
    exact (hfiled _ found hfound).symm
  obtain ⟨j, _, _, hbasis⟩ := Rules.exists_basis hplan
  obtain rfl : j = i := Except.ok.inj (hbasis.selected.symm.trans hi)
  have hwithdraw : j.IsWithdraw := by
    rw [Intention.IsWithdraw, Rules.parse_of_plan_eq_ok hplan hi, haction]
  exact ⟨(IntentionSet.withdraws_iff hi).2 ⟨hbasis.initiator.symm, hwithdraw⟩, found, hfound,
    hcools⟩

lemma claim_eq_error_of_perform {id : Address} {refusal : Refusal}
    (h : (s.perform (.claim id now)).1 = .error refusal) :
    s.accounts.claim id now = .error refusal := by
  simp only [perform, Call.act, Settlement.claim, run_bind, run_get, run_ofOutcome, run_set,
    run_pure] at h
  cases hdue : s.accounts.claim id now with
  | error other =>
    rw [hdue] at h
    cases h
    rfl
  | ok due =>
    rw [hdue] at h
    cases h

/-- An execution is refused by its checks, or because a coin is not confirmed. -/
lemma execute_eq_error_of_perform {request : ExecuteRequest} {confirmed : List CoinId}
    {refusal : Refusal} (h : (s.perform (.execute request confirmed now)).1 = .error refusal) :
    s.prepare request now = .error refusal ∨
      ∃ prepared : Prepared, prepared.plan.checkConfirmed confirmed = .error refusal := by
  simp only [perform, Call.act, Settlement.execute, run_bind, run_get, run_ofOutcome, run_set,
    run_pure] at h
  cases hchecked : s.prepare request now with
  | error other =>
    rw [hchecked] at h
    cases h
    exact .inl rfl
  | ok prepared =>
    rw [hchecked] at h
    dsimp only at h
    cases hknown : prepared.plan.checkConfirmed confirmed with
    | error other =>
      rw [hknown] at h
      cases h
      exact .inr ⟨prepared, hknown⟩
    | ok _ =>
      rw [hknown] at h
      cases h

/-- Who is refused for a cooldown has asked for what it guards before it was over. -/
theorem of_perform_cools (hfiled : s.accounts.Filed)
    (h : (s.perform call).1 = .error (.coolingDown account readyAt)) :
    ∃ now found, call.seeks account = true ∧ call.now? = some now ∧
      s.accounts.get? account = some found ∧
      found.checkCooldown s.accounts.cooldown now = .error (.coolingDown account readyAt) := by
  cases call with
  | claim id now =>
    obtain ⟨found, hfound, hcools⟩ :=
      exists_of_guard_cools (fun _ => by simp) (claim_eq_error_of_perform h)
    obtain rfl : id = account := by
      obtain ⟨_, _, -, hrefusal, -⟩ := Account.checkCooldown_eq_error_iff.1 hcools
      cases hrefusal
      exact (hfiled id found hfound).symm
    exact ⟨now, found, decide_eq_true rfl, rfl, hfound, hcools⟩
  | execute request confirmed now =>
    rcases execute_eq_error_of_perform h with hprepare | ⟨prepared, hunknown⟩
    · obtain ⟨hseeks, found, hfound, hcools⟩ := of_prepare_cools hfiled hprepare
      exact ⟨now, found, hseeks, rfl, hfound, hcools⟩
    · exact absurd hunknown (prepared.plan.neverCools_checkConfirmed confirmed).ne_error
  | _ => exact absurd h (neverCools_act (by simp) (by simp) s).ne_error

/-! ### Runs -/

lemma Moves.cooldown_eq (h : Moves s call answer s') :
    s'.accounts.cooldown = s.accounts.cooldown := by
  cases h with
  | @committed _ _ _ _ _ account? => cases account? <;> rfl
  | claimed due =>
    obtain ⟨_, _, -, -, -, -, -, rfl⟩ := AccountBook.claim_eq_ok_iff.1 due
    rfl
  | accrued within =>
    obtain ⟨_, _, -, -, -, -, rfl⟩ := AccountBook.accrue_eq_ok_iff.1 within
    rfl
  | _ => rfl

lemma cooldown_after (s : Settlement) (calls : List Call) :
    (s.after calls).accounts.cooldown = s.accounts.cooldown := by
  induction calls using List.reverseRecOn with
  | nil => rfl
  | append_singleton calls call ih => rw [after_concat, (moves_perform _ call).cooldown_eq, ih]

/-- What a step finds after the steps before it: the accounts are stamped with their last actions,
and no action is later than these. -/
structure Stamped (cooldown : Seconds) (earlier : List Step) (step : Step) : Prop where
  answer : step.answer = (step.before.perform step.call).1
  filed : step.before.accounts.Filed
  cooldown : step.before.accounts.cooldown = cooldown
  stamp : ∀ account found, step.before.accounts.get? account = some found →
    found.lastAction = (actionsOf earlier account).getLast?
  latest : ∀ account last, (actionsOf earlier account).getLast? = some last →
    ∀ moment ∈ actionsOf earlier account, moment.toNat ≤ last.toNat

lemma stamped_of_trace {rules : Rules} {accounts : AccountBook} {capacity : Nat} {calls : List Call}
    {earlier later : List Step} {step : Step} (hfresh : accounts.Fresh) (hordered : InOrder calls)
    (hsteps : (create rules accounts capacity).trace calls = earlier ++ step :: later) :
    Stamped accounts.cooldown earlier step := by
  obtain ⟨past, rest, rfl, rfl, hbefore, hanswer, -⟩ := exists_split_of_trace hsteps
  refine ⟨hanswer, ?_, ?_, ?_, fun account last => hordered.of_append.le_last _⟩
  · rw [hbefore]
    exact (effectsStand_after rules capacity past hfresh.filed).filed
  · rw [hbefore, cooldown_after]
    rfl
  · intro account found hfound
    have hstamp := lastAction_after rules capacity past hfresh account
    dsimp only at hstamp
    rw [← hbefore, AccountBook.lastAction?, hfound] at hstamp
    exact hstamp

variable {cooldown : Seconds} {earlier : List Step} {step : Step}

lemma Stamped.ready_le {receipt : Receipt} (h : Stamped cooldown earlier step)
    (hseeks : step.call.seeks account = true) (hanswer : step.answer = .ok receipt) :
    ∃ now, step.call.now? = some now ∧
      ∀ moment ∈ actionsOf earlier account, readyAfter cooldown moment ≤ now.toNat := by
  have hmove := moves_perform step.before step.call
  rw [← h.answer, hanswer] at hmove
  obtain ⟨now, found, hnow, hfound, hcool⟩ := hmove.checkCooldown hseeks
  refine ⟨now, hnow, ?_⟩
  intro moment hmoment
  cases hlast : (actionsOf earlier account).getLast? with
  | none =>
    rw [List.getLast?_eq_none_iff.1 hlast] at hmoment
    cases hmoment
  | some last =>
    have hle := h.latest account last hlast moment hmoment
    have hstamp := (h.stamp _ found hfound).trans hlast
    have hready := Account.checkCooldown_eq_ok_iff.1 hcool last hstamp
    rw [h.cooldown, readyAfter] at hready
    rw [readyAfter]
    omega

lemma Stamped.of_cools (h : Stamped cooldown earlier step)
    (hanswer : step.answer = .error (.coolingDown account readyAt)) :
    ∃ now last, step.call.seeks account = true ∧ step.call.now? = some now ∧
      last ∈ actionsOf earlier account ∧
      (∀ moment ∈ actionsOf earlier account, moment.toNat ≤ last.toNat) ∧
      readyAt.toNat = readyAfter cooldown last ∧ now.toNat < readyAt.toNat := by
  rw [h.answer] at hanswer
  obtain ⟨now, found, hseeks, hnow, hfound, hcools⟩ := of_perform_cools h.filed hanswer
  obtain ⟨last, _, hstamp, hrefusal, hready, hearly⟩ := Account.checkCooldown_eq_error_iff.1 hcools
  cases hrefusal
  rw [h.cooldown] at hready
  have hlast := (h.stamp _ found hfound).symm.trans hstamp
  exact ⟨now, last, hseeks, hnow, List.mem_of_getLast? hlast, h.latest _ last hlast, hready, hearly⟩

namespace Sample

/-- Pays the register fee and moves the pool's first output on. -/
def registering : Intention :=
  { swap with action := "register", inputs := [⟨"trader", Coin.native 10#64⟩], outputs := [] }

/-- An account is registered and claims its rewards, too early the second time. -/
def claiming : List Call :=
  [.registerPool "name" ⟨"untweaked", "tweaked", [], "pool"⟩ token 100#128 "",
    .deposit "pool" legA legB,
    .execute ⟨"00", (txid 2).text, ⟨"trader", [registering]⟩, 0#32, 0#32⟩ [] 0#64,
    .finalize (txid 2).text "untweaked" 1#64, .accrue "trader" 9#128, .claim "trader" 5#64,
    .accrue "trader" 4#128, .claim "trader" 14#64, .claim "trader" 15#64]

end Sample

/-- A cooldown lies between the actions of an account. Where the clock does not go back, a claim or
the execution of a withdrawal is let through only after the cooldown of every earlier claim and
every withdrawal committed earlier. Who is refused for a cooldown has acted earlier, and is told the
end of the cooldown after the last action, which is yet to come. -/
theorem cooldown_kept (rules : Rules) {accounts : AccountBook} (capacity : Nat)
    {calls : List Call} (hfresh : accounts.Fresh) (hordered : InOrder calls) :
    let steps := (create rules accounts capacity).trace calls
    (∀ earlier step later account receipt, steps = earlier ++ step :: later →
      step.call.seeks account = true → step.answer = .ok receipt →
      ∃ now, step.call.now? = some now ∧
        ∀ moment ∈ actionsOf earlier account, readyAfter accounts.cooldown moment ≤ now.toNat) ∧
    ∀ earlier step later account readyAt, steps = earlier ++ step :: later →
      step.answer = .error (.coolingDown account readyAt) →
      ∃ now last, step.call.seeks account = true ∧ step.call.now? = some now ∧
        last ∈ actionsOf earlier account ∧
        (∀ moment ∈ actionsOf earlier account, moment.toNat ≤ last.toNat) ∧
        readyAt.toNat = readyAfter accounts.cooldown last ∧ now.toNat < readyAt.toNat := by
  intro steps
  constructor
  · intro earlier step later account receipt hsteps hseeks hanswer
    exact (stamped_of_trace hfresh hordered hsteps).ready_le hseeks hanswer
  · intro earlier step later account readyAt hsteps hanswer
    exact (stamped_of_trace hfresh hordered hsteps).of_cools hanswer

theorem cooldown_kept_sample :
    let steps := (create Sample.rules (.create 10#64 100#128) 10).trace Sample.claiming
    ∃ earlier refused accepted, steps = earlier ++ [refused, accepted] ∧
      refused.answer = .error (.coolingDown "trader" 15#64) ∧
      (∃ last ∈ actionsOf earlier "trader", readyAfter 10#64 last = 15) ∧
      accepted.answer = .ok (.amount 4#128) ∧
      ∀ moment ∈ actionsOf (earlier ++ [refused]) "trader", readyAfter 10#64 moment ≤ 15 := by
  intro steps
  obtain ⟨earlier, refused, accepted, hsteps, hrefused, haccepted, hcall⟩ :
      ∃ earlier refused accepted, steps = earlier ++ [refused, accepted] ∧
        refused.answer = .error (.coolingDown "trader" 15#64) ∧
        accepted.answer = .ok (.amount 4#128) ∧ accepted.call = .claim "trader" 15#64 :=
    ⟨steps.take 7, _, _, rfl, by decide +kernel, by decide +kernel, rfl⟩
  have hordered : InOrder Sample.claiming := by
    unfold InOrder
    decide
  have hend : steps = (earlier ++ [refused]) ++ accepted :: [] := by
    rw [hsteps, List.append_assoc]
    rfl
  have hseeks : accepted.call.seeks "trader" = true := by
    rw [hcall]
    rfl
  obtain ⟨hlet, htold⟩ :=
    cooldown_kept Sample.rules 10 (AccountBook.fresh_create 10#64 100#128) hordered
  obtain ⟨_, last, -, -, hlast, -, hready, -⟩ := htold _ refused [accepted] _ _ hsteps hrefused
  obtain ⟨now, hnow, hpassed⟩ := hlet _ accepted [] "trader" _ hend hseeks haccepted
  rw [hcall] at hnow
  cases hnow
  exact ⟨earlier, refused, accepted, hsteps, hrefused, ⟨last, hlast, hready.symm⟩, haccepted,
    hpassed⟩

end Settlement

end RuneSettlement
