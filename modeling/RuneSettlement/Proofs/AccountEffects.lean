import RuneSettlement.Proofs.PendingAgreement

/-!
# Account effects

The effect that a pending transaction has on an account is checked when the transaction is staged
and takes place when it is committed. Until then accounts accrue and claim, and transactions on
other pools take effect. None of this can invalidate it (`Settlement.effectsStand_after`): rewards
only add to what is withdrawable, and no two pending effects name the same account.
-/

namespace RuneSettlement

namespace AccountBook

variable {b b' : AccountBook} {id : Address}

/-- Every account is filed under its own identifier. -/
def Filed (b : AccountBook) : Prop := ∀ id account, b.get? id = some account → account.id = id

/-- An effect that can take place at any time. -/
inductive Admits (b : AccountBook) : AccountEffect → Prop
  | none : b.Admits .none
  | register {id : Address} (absent : b.get? id = none) : b.Admits (.register id)
  | withdraw {id : Address} {amount : Amount} {account : Account}
      (found : b.get? id = some account) (positive : 0 < amount.toNat)
      (covered : amount.toNat ≤ account.withdrawable.toNat) : b.Admits (.withdraw id amount)

/-- No account appears, and none loses what it may withdraw. -/
structure Raises (b b' : AccountBook) : Prop where
  absent : ∀ id, b.get? id = none → b'.get? id = none
  found : ∀ id account, b.get? id = some account →
    ∃ raised, b'.get? id = some raised ∧ account.withdrawable.toNat ≤ raised.withdrawable.toNat

theorem accrue_eq_ok_iff {amount balance : Amount} :
    b.accrue id amount = .ok (balance, b') ↔
      ∃ account accrued, b.get? id = some account ∧
        amount.toNat ≤ b.remainingRewards.toNat ∧ accrued.toNat = b.accrued.toNat + amount.toNat ∧
        balance.toNat = account.rewards.toNat + amount.toNat ∧
        b' = { b with
          accounts := b.accounts.insert id { account with rewards := balance }
          accrued } := by
  simp only [accrue, require, Outcome.unless_eq_ok_iff, Outcome.bind_eq_ok_iff,
    Outcome.ofOption_eq_ok_iff, Outcome.pure_eq_ok_iff, Quantity.add_eq_ok_iff, Prod.mk.injEq,
    Nat.not_lt]
  constructor
  · rintro ⟨account, hfound, hwithin, accrued, haccrued, _, hbalance, rfl, rfl⟩
    exact ⟨account, accrued, hfound, hwithin, haccrued, hbalance, rfl⟩
  · rintro ⟨account, accrued, hfound, hwithin, haccrued, hbalance, rfl⟩
    exact ⟨account, hfound, hwithin, accrued, haccrued, balance, hbalance, rfl, rfl⟩

theorem claim_eq_ok_iff {amount : Amount} {now : Timestamp} :
    b.claim id now = .ok (amount, b') ↔
      ∃ account withdrawable, b.get? id = some account ∧
        account.checkCooldown b.cooldown now = .ok () ∧ account.rewards = amount ∧
        amount ≠ 0#128 ∧
        withdrawable.toNat = account.withdrawable.toNat + amount.toNat ∧
        b' = b.store { account with rewards := 0#128, withdrawable, lastAction := some now } := by
  simp only [claim, require, Outcome.unless_eq_ok_iff, Outcome.bind_eq_ok_iff,
    Outcome.ofOption_eq_ok_iff, Outcome.pure_eq_ok_iff, Quantity.add_eq_ok_iff, Prod.mk.injEq]
  constructor
  · rintro ⟨account, hfound, _, hcool, hsome, withdrawable, hsum, rfl, rfl⟩
    exact ⟨account, withdrawable, hfound, hcool, rfl, hsome, hsum, rfl⟩
  · rintro ⟨account, withdrawable, hfound, hcool, rfl, hsome, hsum, rfl⟩
    exact ⟨account, hfound, (), hcool, hsome, withdrawable, hsum, rfl, rfl⟩

theorem checkWithdraw_eq_ok_iff {amount : Amount} {now : Timestamp} :
    b.checkWithdraw id amount now = .ok () ↔
      ∃ account, b.get? id = some account ∧ account.checkCooldown b.cooldown now = .ok () ∧
        amount ≠ 0#128 ∧ amount = account.withdrawable := by
  simp only [checkWithdraw, require, Outcome.bind_eq_ok_iff, Outcome.ofOption_eq_ok_iff]
  constructor
  · rintro ⟨account, hfound, _, hcool, hdrains⟩
    split at hdrains
    · cases hdrains
    · next hnot =>
      obtain ⟨hsome, hwhole⟩ := not_or.1 hnot
      obtain rfl := not_ne_iff.1 hwhole
      exact ⟨account, hfound, hcool, hsome, rfl⟩
  · rintro ⟨account, hfound, hcool, hsome, rfl⟩
    refine ⟨account, hfound, (), hcool, ?_⟩
    rw [if_neg (by simp [hsome])]
    rfl

theorem checkAbsent_eq_ok_iff : b.checkAbsent id = .ok () ↔ b.get? id = none := by
  unfold checkAbsent get? SortedMap.contains
  cases b.accounts.get? id <;> simp

theorem preview_register_eq_ok_iff {now : Timestamp} {account? : Option Account} :
    b.preview (.register id) now = .ok account? ↔
      b.get? id = none ∧ account? = some (.create id now) := by
  simp only [preview, Outcome.bind_eq_ok_iff, Outcome.pure_eq_ok_iff]
  constructor
  · rintro ⟨_, habsent, rfl⟩
    exact ⟨checkAbsent_eq_ok_iff.1 habsent, rfl⟩
  · rintro ⟨habsent, rfl⟩
    exact ⟨(), checkAbsent_eq_ok_iff.2 habsent, rfl⟩

theorem preview_withdraw_eq_ok_iff {amount : Amount} {now : Timestamp}
    {account? : Option Account} :
    b.preview (.withdraw id amount) now = .ok account? ↔
      ∃ account withdrawable, b.get? id = some account ∧
        account.withdrawable.toNat = amount.toNat + withdrawable.toNat ∧
        account? = some { account with withdrawable, lastAction := some now } := by
  simp only [preview, Outcome.bind_eq_ok_iff, Outcome.pure_eq_ok_iff, require,
    Outcome.ofOption_eq_ok_iff, Word.sub?_eq_some_iff]
  constructor
  · rintro ⟨account, hfound, withdrawable, hrest, rfl⟩
    exact ⟨account, withdrawable, hfound, hrest, rfl⟩
  · rintro ⟨account, withdrawable, hfound, hrest, rfl⟩
    exact ⟨account, hfound, withdrawable, hrest, rfl⟩

lemma Admits.exists_preview_eq_ok {effect : AccountEffect} (h : b.Admits effect)
    (now : Timestamp) : ∃ account?, b.preview effect now = .ok account? := by
  cases h with
  | none => exact ⟨Option.none, rfl⟩
  | register absent => exact ⟨_, preview_register_eq_ok_iff.2 ⟨absent, rfl⟩⟩
  | withdraw found positive covered =>
    obtain ⟨withdrawable, hrest⟩ := Quantity.exists_sub_eq_ok covered
    exact ⟨_, preview_withdraw_eq_ok_iff.2
      ⟨_, withdrawable, found, Quantity.sub_eq_ok_iff.1 hrest, rfl⟩⟩

/-- What an effect leaves behind is the account that it names. -/
lemma Filed.account?_of_preview {effect : AccountEffect} {account? : Option Account}
    {now : Timestamp} (hb : b.Filed) (h : b.preview effect now = .ok account?) :
    effect.account? = account?.map (·.id) := by
  cases effect with
  | none =>
    cases h
    rfl
  | register id =>
    obtain ⟨-, rfl⟩ := preview_register_eq_ok_iff.1 h
    rfl
  | withdraw id amount =>
    obtain ⟨account, withdrawable, hfound, -, rfl⟩ := preview_withdraw_eq_ok_iff.1 h
    exact congrArg some (hb id account hfound).symm

lemma get?_elim_store (b : AccountBook) (account? : Option Account) (id : Address) :
    (account?.elim b b.store).get? id =
      if account?.map (·.id) = some id then account? else b.get? id := by
  cases account? with
  | none => rfl
  | some account => simp [get?_store]

lemma get?_of_insert {account : Account} (hb' : b'.accounts = b.accounts.insert id account)
    (other : Address) : b'.get? other = if id = other then some account else b.get? other := by
  rw [get?, hb', SortedMap.get?_insert, get?]
  simp only [Key.same_iff]

lemma get?_of_accrue {amount balance : Amount} (h : b.accrue id amount = .ok (balance, b')) :
    ∃ account, b.get? id = some account ∧ ∀ other, b'.get? other =
      if id = other then some { account with rewards := balance } else b.get? other := by
  obtain ⟨account, _, hfound, -, -, -, rfl⟩ := accrue_eq_ok_iff.1 h
  exact ⟨account, hfound, get?_of_insert rfl⟩

lemma Filed.get?_of_claim {amount : Amount} {now : Timestamp} (hb : b.Filed)
    (h : b.claim id now = .ok (amount, b')) :
    ∃ account withdrawable, b.get? id = some account ∧
      withdrawable.toNat = account.withdrawable.toNat + amount.toNat ∧
      ∀ other, b'.get? other =
        if id = other then
          some { account with rewards := 0#128, withdrawable, lastAction := some now }
        else b.get? other := by
  obtain ⟨account, withdrawable, hfound, -, -, -, hsum, rfl⟩ := claim_eq_ok_iff.1 h
  obtain rfl := hb id account hfound
  exact ⟨account, withdrawable, hfound, hsum, b.get?_store _⟩

lemma Filed.insert {account : Account} (hb : b.Filed) (hid : account.id = id)
    (hb' : b'.accounts = b.accounts.insert id account) : b'.Filed := by
  intro other found hfound
  rw [get?, hb', SortedMap.get?_insert] at hfound
  split at hfound
  · next heq =>
    cases hfound
    rw [hid, Key.same_iff.1 heq]
  · exact hb other found hfound

lemma Admits.congr {effect : AccountEffect} (h : b.Admits effect)
    (hsame : ∀ id, effect.account? = some id → b'.get? id = b.get? id) : b'.Admits effect := by
  cases h with
  | none => exact .none
  | @register id absent => exact .register ((hsame id rfl).trans absent)
  | @withdraw id _ _ found positive covered =>
    exact .withdraw ((hsame id rfl).trans found) positive covered

lemma Admits.raise {effect : AccountEffect} (h : b.Admits effect) (hraises : b.Raises b') :
    b'.Admits effect := by
  cases h with
  | none => exact .none
  | @register id absent => exact .register (hraises.absent id absent)
  | @withdraw id amount account found positive covered =>
    obtain ⟨raised, hraised, hle⟩ := hraises.found id account found
    exact .withdraw hraised positive (Nat.le_trans covered hle)

/-- A change of one account that takes nothing from what it may withdraw. -/
lemma raises_insert {account raised : Account} (hfound : b.get? id = some account)
    (hb' : b'.accounts = b.accounts.insert id raised)
    (hle : account.withdrawable.toNat ≤ raised.withdrawable.toNat) : b.Raises b' where
  absent := by
    intro other hother
    rw [get?, hb', SortedMap.get?_insert, if_neg]
    · exact hother
    · intro hsame
      rw [← Key.same_iff.1 hsame, hfound] at hother
      cases hother
  found := by
    intro other current hother
    rw [get?, hb', SortedMap.get?_insert]
    by_cases hsame : Key.same id other = true
    · obtain rfl := Key.same_iff.1 hsame
      obtain rfl := Option.some.inj (hfound.symm.trans hother)
      exact ⟨raised, if_pos hsame, hle⟩
    · exact ⟨current, (if_neg hsame).trans hother, Nat.le_refl _⟩

end AccountBook

namespace Settlement

variable {s s' : Settlement} {call : Call} {answer : Outcome Receipt}

/-- Every pending effect can take place, and no two of them name the same account. -/
structure EffectsStand (s : Settlement) : Prop where
  filed : s.accounts.Filed
  admitted : ∀ p slot, s.pendingOn? p = some slot → s.accounts.Admits slot.effect
  apart : ∀ p q slot other account, s.pendingOn? p = some slot → s.pendingOn? q = some other →
    slot.effect.account? = some account → other.effect.account? = some account → p = q

lemma mem_pendingEffects_iff {account : Address} {effect : AccountEffect} :
    effect ∈ s.pendingEffects account ↔
      effect.account? = some account ∧
        ∃ p slot, s.pendingOn? p = some slot ∧ slot.effect = effect := by
  simp only [pendingEffects, List.mem_filter, List.mem_map, SortedMap.mem_values_iff,
    decide_eq_true_eq, pendingOn?]
  constructor
  · rintro ⟨⟨slot, ⟨p, hslot⟩, heffect⟩, haccount⟩
    exact ⟨haccount, p, slot, hslot, heffect⟩
  · rintro ⟨haccount, p, slot, hslot, heffect⟩
    exact ⟨⟨slot, ⟨p, hslot⟩, heffect⟩, haccount⟩

/-- The effect of an accepted plan, by its action, with the checks that it has passed. -/
lemma accountEffect_cases {plan : Plan} {now : Timestamp} {effect : AccountEffect}
    (h : s.accountEffect plan now = .ok effect) :
    ((plan.action = .swap ∨ plan.action = .addLiquidity) ∧ effect = .none) ∨
      (plan.action = .register ∧ effect = .register plan.initiator ∧
        s.accounts.get? plan.initiator = none ∧ s.pendingEffects plan.initiator = []) ∨
      (plan.action = .withdraw ∧
        effect = .withdraw plan.initiator (plan.outflow.amountOf plan.staged.token) ∧
        (∀ pending ∈ s.pendingEffects plan.initiator, pending.isWithdraw = false) ∧
        s.accounts.checkWithdraw plan.initiator (plan.outflow.amountOf plan.staged.token) now =
          .ok ()) := by
  unfold accountEffect at h
  cases haction : plan.action with
  | swap | addLiquidity =>
    rw [haction] at h
    cases h
    simp
  | register =>
    simp only [haction, Outcome.bind_eq_ok_iff, Outcome.unless_eq_ok_iff, Outcome.pure_eq_ok_iff,
      not_not] at h
    obtain ⟨_, habsent, hidle, rfl⟩ := h
    exact .inr (.inl ⟨rfl, rfl, AccountBook.checkAbsent_eq_ok_iff.1 habsent, hidle⟩)
  | withdraw =>
    simp only [haction, Outcome.bind_eq_ok_iff, Outcome.unless_eq_ok_iff, Outcome.pure_eq_ok_iff,
      Bool.not_eq_true] at h
    obtain ⟨hidle, _, hwithdraw, rfl⟩ := h
    refine .inr (.inr ⟨rfl, rfl, ?_, hwithdraw⟩)
    intro pending hpending
    simpa using List.any_eq_false.1 hidle pending hpending

/-- A withdrawal that was prepared takes all that its account may withdraw, after the cooldown. -/
lemma checkWithdraw_of_prepare {request : ExecuteRequest} {now : Timestamp} {prepared : Prepared}
    {account : Address} {amount : Amount} (h : s.prepare request now = .ok prepared)
    (heffect : prepared.effect = .withdraw account amount) :
    s.accounts.checkWithdraw account amount now = .ok () := by
  obtain ⟨_, -, -, -, -, -, haccepted⟩ := of_prepare_eq_ok h
  rw [heffect] at haccepted
  rcases accountEffect_cases haccepted with ⟨-, hother⟩ | ⟨-, hother, -⟩ | ⟨-, hsame, -, hcheck⟩
  · cases hother
  · cases hother
  · rw [AccountEffect.withdraw.injEq] at hsame
    obtain ⟨rfl, rfl⟩ := hsame
    exact hcheck

/-- The effect of a plan that was accepted can take place, and no pending effect names its
account. -/
lemma EffectsStand.of_accountEffect_eq_ok {plan : Plan} {now : Timestamp} {effect : AccountEffect}
    (hs : s.EffectsStand) (h : s.accountEffect plan now = .ok effect) :
    s.accounts.Admits effect ∧ ∀ p slot account, s.pendingOn? p = some slot →
      effect.account? = some account → slot.effect.account? ≠ some account := by
  rcases accountEffect_cases h with ⟨-, rfl⟩ | ⟨-, rfl, habsent, hidle⟩ |
    ⟨-, rfl, hidle, hwithdraw⟩
  · refine ⟨.none, ?_⟩
    intro p slot account hslot heffect
    cases heffect
  · refine ⟨.register habsent, ?_⟩
    intro p slot account hslot heffect hother
    cases heffect
    have hmem := mem_pendingEffects_iff.2 ⟨hother, p, slot, hslot, rfl⟩
    rw [hidle] at hmem
    cases hmem
  · obtain ⟨found, hfound, -, hsome, hwhole⟩ := AccountBook.checkWithdraw_eq_ok_iff.1 hwithdraw
    have hpositive : 0 < (plan.outflow.amountOf plan.staged.token).toNat :=
      Nat.pos_of_ne_zero fun hzero => hsome (BitVec.eq_of_toNat_eq hzero)
    refine ⟨.withdraw hfound hpositive (Nat.le_of_eq (congrArg BitVec.toNat hwhole)), ?_⟩
    intro p slot account hslot heffect hother
    cases heffect
    have hbusy := hidle _ (mem_pendingEffects_iff.2 ⟨hother, p, slot, hslot, rfl⟩)
    have hstands := hs.admitted p slot hslot
    cases heffect : slot.effect with
    | none =>
      rw [heffect] at hother
      cases hother
    | register id =>
      -- The account is there already, so no registration of it is pending.
      rw [heffect] at hother hstands
      cases hother
      cases hstands with
      | register absent =>
        rw [hfound] at absent
        cases absent
    | withdraw id amount =>
      rw [heffect] at hbusy
      cases hbusy

/-- Pending effects stand when slots and accounts are kept, or one account rises. -/
lemma EffectsStand.raise (hs : s.EffectsStand) (hfiled : s'.accounts.Filed)
    (hpending : s'.pending = s.pending) (hraises : s.accounts.Raises s'.accounts) :
    s'.EffectsStand where
  filed := hfiled
  admitted := by
    intro p slot hslot
    rw [pendingOn?, hpending] at hslot
    exact (hs.admitted p slot hslot).raise hraises
  apart := by
    intro p q slot other account hslot hother
    rw [pendingOn?, hpending] at hslot hother
    exact hs.apart p q slot other account hslot hother

lemma EffectsStand.fill {p : Address} {slot : PendingTransaction} (hs : s.EffectsStand)
    (haccounts : s'.accounts = s.accounts) (hpending : s'.pending = s.pending.insert p slot)
    (hadmits : s.accounts.Admits slot.effect)
    (hapart : ∀ q other account, s.pendingOn? q = some other →
      slot.effect.account? = some account → other.effect.account? ≠ some account) :
    s'.EffectsStand where
  filed := haccounts ▸ hs.filed
  admitted := by
    intro q other hother
    rw [haccounts]
    rw [pendingOn?, hpending, SortedMap.get?_insert] at hother
    split at hother
    · cases hother
      exact hadmits
    · exact hs.admitted q other hother
  apart := by
    intro q r first second account hfirst hsecond hnamed hnamed'
    rw [pendingOn?, hpending, SortedMap.get?_insert] at hfirst hsecond
    split at hfirst
    · next hq =>
      split at hsecond
      · next hr => rw [← Key.same_iff.1 hq, ← Key.same_iff.1 hr]
      · cases hfirst
        exact absurd hnamed' (hapart r second account hsecond hnamed)
    · split at hsecond
      · cases hsecond
        exact absurd hnamed (hapart q first account hfirst hnamed')
      · exact hs.apart q r first second account hfirst hsecond hnamed hnamed'

/-- Where a slot is emptied, its own effect may take place. -/
lemma EffectsStand.resolve {p : Address} {slot : PendingTransaction} (hs : s.EffectsStand)
    (hslot : s.pendingOn? p = some slot) (hpending : s'.pending = s.pending.erase p)
    (hfiled : s'.accounts.Filed)
    (hothers : ∀ id, slot.effect.account? ≠ some id → s'.accounts.get? id = s.accounts.get? id) :
    s'.EffectsStand where
  filed := hfiled
  admitted := by
    intro q other hother
    rw [pendingOn?, hpending, SortedMap.get?_erase] at hother
    split at hother
    · cases hother
    · next hne =>
      apply (hs.admitted q other hother).congr
      intro id hid
      apply hothers
      intro hnamed
      exact hne (Key.same_iff.2 (hs.apart p q slot other id hslot hother hnamed hid))
  apart := by
    intro q r first second account hfirst hsecond
    rw [pendingOn?, hpending, SortedMap.get?_erase] at hfirst hsecond
    split at hfirst
    · cases hfirst
    · split at hsecond
      · cases hsecond
      · exact hs.apart q r first second account hfirst hsecond

theorem EffectsStand.move (hs : s.EffectsStand) (h : Moves s call answer s') : s'.EffectsStand := by
  cases h with
  | staged checked known =>
    obtain ⟨_, -, -, -, -, -, heffect⟩ := of_prepare_eq_ok checked
    obtain ⟨hadmits, hapart⟩ := hs.of_accountEffect_eq_ok heffect
    exact hs.fill rfl rfl hadmits hapart
  | @committed _ _ _ _ _ account? _ _ _ _ pending _ previewed _ _ =>
    have hnames := hs.filed.account?_of_preview previewed
    apply hs.resolve pending rfl
    · cases account? with
      | none => exact hs.filed
      | some account => exact hs.filed.insert rfl rfl
    · intro id hid
      rw [AccountBook.get?_elim_store, if_neg]
      rwa [← hnames]
  | dropped _ _ pending => exact hs.resolve pending rfl hs.filed fun _ _ => rfl
  | claimed due =>
    obtain ⟨account, withdrawable, hfound, -, -, -, hsum, rfl⟩ := AccountBook.claim_eq_ok_iff.1 due
    obtain rfl := hs.filed _ _ hfound
    refine hs.raise ?_ rfl ?_
    · exact hs.filed.insert rfl rfl
    · apply AccountBook.raises_insert hfound rfl
      rw [hsum]
      exact Nat.le_add_right _ _
  | accrued within =>
    obtain ⟨account, accrued, hfound, -, -, -, rfl⟩ := AccountBook.accrue_eq_ok_iff.1 within
    have hid := hs.filed _ _ hfound
    refine hs.raise ?_ rfl ?_
    · refine hs.filed.insert ?_ rfl
      exact hid
    · exact AccountBook.raises_insert hfound rfl (Nat.le_refl _)
  | _ => exact ⟨hs.filed, hs.admitted, hs.apart⟩

lemma effectsStand_create (rules : Rules) {accounts : AccountBook} (capacity : Nat)
    (haccounts : accounts.Filed) : (create rules accounts capacity).EffectsStand where
  filed := haccounts
  admitted := by
    intro p slot hslot
    simp [create, pendingOn?] at hslot
  apart := by
    intro p q slot other account hslot
    simp [create, pendingOn?] at hslot

/-- Whatever happens while an effect is pending, it can still take place. -/
theorem effectsStand_after (rules : Rules) {accounts : AccountBook} (capacity : Nat)
    (calls : List Call) (haccounts : accounts.Filed) :
    ((create rules accounts capacity).after calls).EffectsStand := by
  induction calls using List.reverseRecOn with
  | nil => exact effectsStand_create rules capacity haccounts
  | append_singleton calls call ih =>
    rw [after_concat]
    exact ih.move (moves_perform _ call)

end Settlement

end RuneSettlement
