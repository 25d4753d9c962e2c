import RuneSettlement.Proofs.RewardConservation

/-!
# Withdrawals while rewards are claimed

What a withdrawal takes is fixed when it is staged, and is then all that its account may withdraw.
Until the withdrawal is committed nothing is taken from that balance, but claims still add to it
(`Moves.withdrawable`). So the commit leaves just what has been claimed since
(`Session.withdrawal_leaves_claims`), and drains the account where nothing has.
-/

namespace RuneSettlement

namespace Settlement

/-- The rewards that a step has claimed for an account. -/
def Step.claimed (step : Step) (account : Address) : Nat :=
  match step.call, step.answer with
  | .claim id _, .ok (.amount amount) => if id = account then amount.toNat else 0
  | _, _ => 0

/-- Whether the step is an accepted claim of an account. -/
def Step.claims (step : Step) (account : Address) : Bool :=
  match step.call, step.answer with
  | .claim id _, .ok _ => decide (id = account)
  | _, _ => false

/-- The transaction that a step has staged. -/
def Step.staged? (step : Step) : Option PendingTransaction :=
  match step.call, step.answer with
  | .execute request _ now, .ok _ =>
    (step.before.prepare request now).toOption.map (·.pendingTransaction request now)
  | _, _ => none

def claimedIn (steps : List Step) (account : Address) : Nat :=
  (steps.map fun step => step.claimed account).sum

variable {s s' : Settlement} {call : Call} {answer : Outcome Receipt} {p account : Address}
  {slot : PendingTransaction} {amount : Amount} {found : Account}

/-! ### Steps -/

lemma claimedIn_trace_cons (s : Settlement) (call : Call) (calls : List Call) (account : Address) :
    claimedIn (s.trace (call :: calls)) account =
      Step.claimed ⟨s, call, (s.perform call).1⟩ account +
        claimedIn ((s.perform call).2.trace calls) account := by
  rw [trace, claimedIn, List.map_cons, List.sum_cons]
  rfl

/-- An accepted claim is one of some rewards. -/
lemma Moves.claimed_eq_zero_iff (h : Moves s call answer s') (account : Address) :
    Step.claimed ⟨s, call, answer⟩ account = 0 ↔ Step.claims ⟨s, call, answer⟩ account = false := by
  cases h with
  | refused => cases call <;> simp [Step.claimed, Step.claims]
  | @claimed id now amount _ due =>
    obtain ⟨_, _, -, -, -, hsome, -, -⟩ := AccountBook.claim_eq_ok_iff.1 due
    have hpositive : amount.toNat ≠ 0 := fun hzero => hsome (BitVec.eq_of_toNat_eq hzero)
    by_cases hid : id = account
    · simp [Step.claimed, Step.claims, hid, hpositive]
    · simp [Step.claimed, Step.claims, hid]
  | _ => simp [Step.claimed, Step.claims]

lemma claimedIn_trace_eq_zero_iff (s : Settlement) (calls : List Call) (account : Address) :
    claimedIn (s.trace calls) account = 0 ↔
      ∀ step ∈ s.trace calls, step.claims account = false := by
  induction calls generalizing s with
  | nil => simp [claimedIn]
  | cons call calls ih =>
    have hstep := (moves_perform s call).claimed_eq_zero_iff account
    rw [claimedIn_trace_cons, Nat.add_eq_zero_iff, hstep, ih, trace, List.forall_mem_cons]

lemma Moves.accounts_eq_of_execute {request : ExecuteRequest} {confirmed : List CoinId}
    {now : Timestamp} (h : Moves s (.execute request confirmed now) answer s') :
    s'.accounts = s.accounts := by
  cases h <;> rfl

/-- An execution that fills a slot has staged its transaction. -/
lemma Moves.staged?_of_filled {request : ExecuteRequest} {confirmed : List CoinId} {now : Timestamp}
    {prepared : Prepared} (h : Moves s (.execute request confirmed now) answer s')
    (hchecked : s.prepare request now = .ok prepared) (hidle : s.pendingOn? p = none)
    (hfilled : s'.pendingOn? p = some slot) :
    Step.staged? ⟨s, .execute request confirmed now, answer⟩ =
      some (prepared.pendingTransaction request now) := by
  cases h with
  | refused =>
    rw [hidle] at hfilled
    cases hfilled
  | staged => simp [Step.staged?, hchecked, Except.toOption]

/-! ### A pending withdrawal -/

/-- While a withdrawal waits, what its account may withdraw grows by what is claimed. -/
lemma Moves.withdrawable (h : Moves s call answer s') (hs : s.EffectsStand)
    (hslot : s.pendingOn? p = some slot) (hkept : s'.pendingOn? p = some slot)
    (heffect : slot.effect = .withdraw account amount)
    (hfound : s.accounts.get? account = some found) :
    ∃ next, s'.accounts.get? account = some next ∧
      next.withdrawable.toNat =
        found.withdrawable.toNat + Step.claimed ⟨s, call, answer⟩ account := by
  cases h with
  | refused => cases call <;> exact ⟨found, hfound, rfl⟩
  | @committed _ _ _ q other account? _ _ named keyed pending balanced previewed =>
    have hnames := hs.filed.account?_of_preview previewed
    have hother : other.effect.account? ≠ some account := by
      intro hsame
      have hnamed : slot.effect.account? = some account := by rw [heffect]; rfl
      obtain rfl := hs.apart p q slot other account hslot pending hnamed hsame
      simp [pendingOn?, SortedMap.get?_erase] at hkept
    refine ⟨found, ?_, rfl⟩
    rw [AccountBook.get?_elim_store, ← hnames, if_neg hother]
    exact hfound
  | @claimed id now claimed _ due =>
    obtain ⟨current, withdrawable, hcurrent, hsum, hget⟩ := hs.filed.get?_of_claim due
    by_cases hid : id = account
    · subst hid
      obtain rfl := Option.some.inj (hfound.symm.trans hcurrent)
      refine ⟨_, (hget id).trans (if_pos rfl), ?_⟩
      simp only [Step.claimed, if_true]
      exact hsum
    · refine ⟨found, ((hget account).trans (if_neg hid)).trans hfound, ?_⟩
      simp only [Step.claimed, if_neg hid, Nat.add_zero]
  | @accrued id _ balance _ within =>
    obtain ⟨current, hcurrent, hget⟩ := AccountBook.get?_of_accrue within
    by_cases hid : id = account
    · subst hid
      obtain rfl := Option.some.inj (hfound.symm.trans hcurrent)
      exact ⟨_, (hget id).trans (if_pos rfl), rfl⟩
    · exact ⟨found, ((hget account).trans (if_neg hid)).trans hfound, rfl⟩
  | _ => exact ⟨found, hfound, rfl⟩

lemma withdrawable_after {calls : List Call} (hs : s.EffectsStand)
    (hfilled : ∀ n, (s.after (calls.take n)).pendingOn? p = some slot)
    (heffect : slot.effect = .withdraw account amount)
    (hfound : s.accounts.get? account = some found) :
    ∃ next, (s.after calls).accounts.get? account = some next ∧
      next.withdrawable.toNat = found.withdrawable.toNat + claimedIn (s.trace calls) account := by
  induction calls generalizing s found with
  | nil => exact ⟨found, hfound, rfl⟩
  | cons call calls ih =>
    have hmove := moves_perform s call
    have hslot : s.pendingOn? p = some slot := hfilled 0
    have hkept : (s.perform call).2.pendingOn? p = some slot := hfilled 1
    obtain ⟨middle, hmiddle, hstep⟩ := hmove.withdrawable hs hslot hkept heffect hfound
    obtain ⟨next, hnext, hrest⟩ := ih (hs.move hmove) (fun n => hfilled (n + 1)) hmiddle
    refine ⟨next, hnext, ?_⟩
    rw [claimedIn_trace_cons, hrest, hstep, Nat.add_assoc]

/-- A pending withdrawal has been staged by a step of the run, and since then its account may
withdraw what it takes and what has been claimed. -/
lemma exists_staged_of_withdraw {rules : Rules} {accounts : AccountBook} {capacity : Nat}
    {calls : List Call} (haccounts : accounts.Filed)
    (hslot : ((create rules accounts capacity).after calls).pendingOn? p = some slot)
    (heffect : slot.effect = .withdraw account amount) :
    ∃ earlier execution since found,
      (create rules accounts capacity).trace calls = earlier ++ execution :: since ∧
      execution.staged? = some slot ∧
      ((create rules accounts capacity).after calls).accounts.get? account = some found ∧
      found.withdrawable.toNat = amount.toNat + claimedIn since account ∧
      (claimedIn since account = 0 ↔ ∀ step ∈ since, step.claims account = false) := by
  obtain ⟨earlier, request, confirmed, now, later, pool, prepared, rfl, hstands, hchecked, rfl⟩ :=
    exists_standing hslot
  let start := create rules accounts capacity
  let execution := Call.execute request confirmed now
  let step : Step := ⟨start.after earlier, execution, ((start.after earlier).perform execution).1⟩
  have hs : (start.after earlier).EffectsStand :=
    effectsStand_after rules capacity earlier haccounts
  have hmove : Moves (start.after earlier) execution step.answer step.next := moves_perform _ _
  have hafter : ∀ rest, start.after (earlier ++ execution :: rest) = step.next.after rest :=
    fun rest => start.after_append earlier (execution :: rest)
  have hfilled : ∀ n, (step.next.after (later.take n)).pendingOn? p =
      some (prepared.pendingTransaction request now) := by
    intro n
    rw [← hafter]
    exact hstands.filled n
  have hcheck := checkWithdraw_of_prepare hchecked heffect
  obtain ⟨found, hfound, -, -, rfl⟩ := AccountBook.checkWithdraw_eq_ok_iff.1 hcheck
  have hkept : step.next.accounts.get? account = some found := by
    rw [hmove.accounts_eq_of_execute]
    exact hfound
  obtain ⟨final, hfinal, hgrown⟩ := withdrawable_after (hs.move hmove) hfilled heffect hkept
  refine ⟨start.trace earlier, step, step.next.trace later, final, ?_, ?_, ?_, hgrown,
    claimedIn_trace_eq_zero_iff step.next later account⟩
  · exact start.trace_append earlier (execution :: later)
  · exact hmove.staged?_of_filled hchecked hstands.idle (hfilled 0)
  · rw [hafter]
    exact hfinal

/-- A withdrawal that is committed leaves what has been claimed since it was staged. -/
lemma Moves.account_of_withdraw (h : Moves s call answer s')
    (hfiled : s.accounts.Filed) (hslot : Step.committed? ⟨s, call, answer⟩ = some slot)
    (heffect : slot.effect = .withdraw account amount)
    (hfound : s.accounts.get? account = some found) :
    ∃ txid poolKey now next, call = .finalize txid poolKey now ∧
      s'.accounts.get? account = some next ∧ next.lastAction = some now ∧
      found.withdrawable.toNat = amount.toNat + next.withdrawable.toNat := by
  obtain ⟨p, now, account?, ⟨txid, poolKey, rfl⟩, -, hpreview, haccounts, -⟩ :=
    h.of_committed? hslot
  rw [heffect] at hpreview
  obtain ⟨current, withdrawable, hcurrent, hrest, rfl⟩ :=
    AccountBook.preview_withdraw_eq_ok_iff.1 hpreview
  obtain rfl := Option.some.inj (hfound.symm.trans hcurrent)
  let next : Account := { found with withdrawable, lastAction := some now }
  refine ⟨txid, poolKey, now, next, rfl, ?_, rfl, hrest⟩
  rw [haccounts, Option.elim_some, AccountBook.get?_store, if_pos (hfiled account found hfound)]

end Settlement

namespace Session

namespace Sample

/-- Rewards are claimed between the execution of a withdrawal and its commit. -/
def claiming : List Event :=
  rewarding.dropLast ++ whole 8 (.claim "trader") 0 ++
    whole 9 (.finalize ⟨(Settlement.Sample.txid 3).text, "untweaked"⟩) 0

end Sample

/-- What a finalized withdrawal leaves. In every session, when a withdrawal is committed its account
may withdraw just what it has claimed since the withdrawal was staged, and its last action is the
commit. So the commit drains the account just where no claim has come in between. -/
theorem withdrawal_leaves_claims (config : Config) (events : List Event) :
    let steps := (Settlement.ofConfig config).trace ((start config).settlementCalls events)
    ∀ earlier step later slot i, steps = earlier ++ step :: later →
      step.committed? = some slot → slot.intention = .ok i → i.IsWithdraw →
      ∃ before execution since txid poolKey now account,
        earlier = before ++ execution :: since ∧ execution.staged? = some slot ∧
        step.call = .finalize txid poolKey now ∧
        step.next.accounts.get? slot.set.initiator = some account ∧
        account.lastAction = some now ∧
        account.withdrawable.toNat = Settlement.claimedIn since slot.set.initiator ∧
        (account.withdrawable = 0#128 ↔
          ∀ step ∈ since, step.claims slot.set.initiator = false) := by
  intro steps earlier step later slot i hsteps hslot hi hwithdraw
  obtain ⟨past, rest, -, rfl, hbefore, hanswer, -⟩ := Settlement.exists_split_of_trace hsteps
  have hmove := Settlement.moves_perform step.before step.call
  rw [← hanswer] at hmove
  obtain ⟨p, -, -, -, hpending, -⟩ := hmove.of_committed? hslot
  have hfiled : step.before.accounts.Filed := by
    rw [hbefore]
    exact Settlement.filed_after config past
  have hpaying : step.before.Paying := by
    rw [hbefore]
    exact Settlement.paying_after _ _ _ past
  obtain ⟨-, amount, heffect, -⟩ := (hpaying p slot hpending).withdraw i hi hwithdraw
  rw [hbefore] at hpending
  obtain ⟨before, execution, since, found, hpast, hstaged, hfound, hgrown, hnone⟩ :=
    Settlement.exists_staged_of_withdraw (fun _ _ hfound => by cases hfound) hpending heffect
  have hmet : step.before.accounts.get? slot.set.initiator = some found := by
    rw [hbefore]
    exact hfound
  obtain ⟨txid, poolKey, now, account, hcall, haccount, hlast, htaken⟩ :=
    hmove.account_of_withdraw hfiled hslot heffect hmet
  have hleft : account.withdrawable.toNat = Settlement.claimedIn since slot.set.initiator := by
    omega
  refine ⟨before, execution, since, txid, poolKey, now, account, hpast, hstaged, hcall, haccount,
    hlast, hleft, ?_⟩
  rw [← hnone, ← hleft]
  exact ⟨fun hzero => congrArg BitVec.toNat hzero, fun hzero => BitVec.eq_of_toNat_eq hzero⟩

theorem withdrawal_leaves_claims_sample :
    let steps := (Settlement.ofConfig Sample.uncooled).trace
      ((start Sample.uncooled).settlementCalls Sample.claiming)
    ∃ earlier step later slot since account, steps = earlier ++ step :: later ∧
      step.committed? = some slot ∧ since <:+ earlier ∧
      step.next.accounts.get? slot.set.initiator = some account ∧
      account.withdrawable.toNat = Settlement.claimedIn since slot.set.initiator := by
  intro steps
  obtain ⟨step, hstep, hpaid⟩ :
      ∃ step ∈ steps, step.committed?.any fun slot =>
        decide (slot.intention = .ok (Sample.withdraw 9#128)) := by
    decide +kernel
  obtain ⟨slot, hslot, hi⟩ := (Option.any_eq_true _ _).1 hpaid
  have hwithdraw : (Sample.withdraw 9#128).IsWithdraw := by decide +kernel
  obtain ⟨earlier, later, hsteps⟩ := List.append_of_mem hstep
  obtain ⟨before, execution, since, _, _, _, account, hearlier, -, -, haccount, -, hleft, -⟩ :=
    withdrawal_leaves_claims Sample.uncooled Sample.claiming earlier step later slot _ hsteps hslot
      (of_decide_eq_true hi) hwithdraw
  refine ⟨earlier, step, later, slot, since, account, hsteps, hslot, ?_, haccount, hleft⟩
  rw [hearlier]
  exact (List.suffix_cons execution since).trans (List.suffix_append before _)

/-- Rewards that were claimed while a withdrawal was pending are still there after its commit. -/
theorem withdrawal_leaves_rest :
    let steps := (Settlement.ofConfig Sample.uncooled).trace
      ((start Sample.uncooled).settlementCalls Sample.claiming)
    (steps.all fun step => step.answer.isOk) = true ∧
    steps.any (fun step =>
      step.committed?.any (fun slot => decide (slot.intention = .ok (Sample.withdraw 9#128))) &&
      (step.next.accounts.get? "trader").any fun account =>
        decide (account.withdrawable = 4#128)) = true := by
  decide +kernel

end Session

end RuneSettlement
