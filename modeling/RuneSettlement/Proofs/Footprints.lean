import RuneSettlement.Proofs.Rollbacks

/-!
# What a call can change

A deposit, an execution or a resolution is aimed at one pool (`Settlement.Call.target?`) and
involves at most one account (`Settlement.Call.Involves`). It changes nothing of any other pool and
no other account (`Settlement.Changes`).
-/

namespace RuneSettlement

open ResolutionLog (Entry)

namespace ResolutionLog

variable {log : ResolutionLog} {key : Address × Txid} {resolution : Resolution}

lemma size_record_le (log : ResolutionLog) (key : Address × Txid) (resolution : Resolution)
    (hroom : log.size < log.capacity) : (log.record key resolution).size ≤ log.size + 1 := by
  unfold record
  cases hknown : log.outcomes.get? key with
  | some known =>
    rw [if_pos (by simp [SortedMap.contains, hknown])]
    exact Nat.le_succ _
  | none =>
    rw [if_neg (by simp [SortedMap.contains, hknown]), if_neg (Nat.not_le.2 hroom)]
    exact Nat.le_of_eq (SortedMap.perm_entries_insert resolution hknown).length_eq

/-- While there is room, the log forgets nothing. -/
lemma get?_record_of_room (hroom : log.size < log.capacity) (p : Address) (id : Txid) :
    (log.record key resolution).get? p id =
      if key = (p, id) then some ((log.get? p id).getD resolution) else log.get? p id := by
  unfold record get?
  cases hknown : log.outcomes.get? key with
  | some known =>
    rw [if_pos (by simp [SortedMap.contains, hknown])]
    split
    · next hkey => rw [← hkey, hknown, Option.getD_some]
    · rfl
  | none =>
    rw [if_neg (by simp [SortedMap.contains, hknown]), if_neg (Nat.not_le.2 hroom)]
    simp only [append, SortedMap.get?_insert, Key.same_iff]
    split
    · next hkey => rw [← hkey, hknown, Option.getD_none]
    · rfl

end ResolutionLog

namespace Settlement

variable {s s' : Settlement} {call : Call} {answer : Outcome Receipt} {p q : Address}

/-- All that the state says of one pool. -/
structure PoolView where
  pool : Option Pool
  slot : Option PendingTransaction
  flows : Option Flows
  outcomes : Txid → Option Resolution

def view (s : Settlement) (p : Address) : PoolView where
  pool := s.registry.get? p
  slot := s.pendingOn? p
  flows := s.flows.flows.get? p
  outcomes := s.resolutions.get? p

namespace Call

/-- The pool that a call is aimed at. -/
def target? (s : Settlement) : Call → Option Address
  | deposit pool _ _ => some pool
  | execute request _ _ => (request.set.select request.index).toOption.map Intention.pool
  | finalize _ poolKey _ => (s.registry.addressForKey poolKey).toOption
  | rollback _ poolKey => (s.registry.addressForKey poolKey).toOption
  | _ => none

/-- The account that the pending transaction named by a request has an effect on. -/
def affected? (s : Settlement) (txid poolKey : String) : Option Address :=
  ((s.named? txid poolKey).bind fun key => s.pendingOn? key.1).bind fun slot => slot.effect.account?

/-- Whether a call may have to do with an account: as the one that initiates what is executed, if it
registers or withdraws, or as the one that a pending transaction has an effect on. -/
def Involves (s : Settlement) (account : Address) : Call → Prop
  | execute request _ _ => request.set.initiator = account ∧
    ∃ i, request.set.select request.index = .ok i ∧
      (Action.parse i.action = .ok .register ∨ Action.parse i.action = .ok .withdraw)
  | finalize txid poolKey _ => affected? s txid poolKey = some account
  | rollback txid poolKey => affected? s txid poolKey = some account
  | _ => False

end Call

/-- A state differs from an earlier one in one pool and in the involved accounts at most. -/
structure Changes (s s' : Settlement) (p : Address) (involved : Address → Prop) : Prop where
  rules : s'.rules = s.rules
  addresses : s'.registry.addresses = s.registry.addresses
  views : ∀ q, q ≠ p → s'.view q = s.view q
  book : s'.accounts = { s.accounts with accounts := s'.accounts.accounts }
  accounts : ∀ a, ¬ involved a → s'.accounts.get? a = s.accounts.get? a
  effects : ∀ a, ¬ involved a → ∀ effect,
    effect ∈ s'.pendingEffects a ↔ effect ∈ s.pendingEffects a

lemma Changes.refl (s : Settlement) (p : Address) (involved : Address → Prop) :
    s.Changes s p involved where
  rules := rfl
  addresses := rfl
  views _ _ := rfl
  book := rfl
  accounts _ _ := rfl
  effects _ _ _ := Iff.rfl

lemma Changes.trans {s'' : Settlement} {involved : Address → Prop} (h : s.Changes s' p involved)
    (h' : s'.Changes s'' p involved) : s.Changes s'' p involved where
  rules := h'.rules.trans h.rules
  addresses := h'.addresses.trans h.addresses
  views q hq := (h'.views q hq).trans (h.views q hq)
  book := by
    rw [h'.book, h.book]
  accounts a ha := (h'.accounts a ha).trans (h.accounts a ha)
  effects a ha effect := (h'.effects a ha effect).trans (h.effects a ha effect)

/-- Only the slot of one pool has changed, and neither what it held nor what it holds has an effect
on the account. -/
lemma mem_pendingEffects_congr {a : Address}
    (hothers : ∀ q, q ≠ p → s'.pendingOn? q = s.pendingOn? q)
    (hbefore : ∀ slot, s.pendingOn? p = some slot → slot.effect.account? ≠ some a)
    (hafter : ∀ slot, s'.pendingOn? p = some slot → slot.effect.account? ≠ some a)
    (effect : AccountEffect) : effect ∈ s'.pendingEffects a ↔ effect ∈ s.pendingEffects a := by
  rw [mem_pendingEffects_iff, mem_pendingEffects_iff]
  refine and_congr_right fun haccount => exists_congr fun q => exists_congr fun slot => ?_
  by_cases hq : q = p
  · subst hq
    constructor
    · rintro ⟨hslot, rfl⟩
      exact absurd haccount (hafter slot hslot)
    · rintro ⟨hslot, rfl⟩
      exact absurd haccount (hbefore slot hslot)
  · rw [hothers q hq]

lemma changes_fund (s : Settlement) (p : Address) (pool : Pool) (flows : FlowBook)
    (hflows : ∀ q, q ≠ p → flows.flows.get? q = s.flows.flows.get? q)
    (involved : Address → Prop) :
    s.Changes { s with
      registry := { s.registry with pools := s.registry.pools.insert p pool }
      flows } p involved where
  rules := rfl
  addresses := rfl
  views := by
    intro q hq
    unfold view
    rw [Registry.get?_insert, if_neg hq.symm, hflows q hq]
    rfl
  book := rfl
  accounts _ _ := rfl
  effects _ _ _ := Iff.rfl

lemma changes_fill (s : Settlement) (p : Address) (slot : PendingTransaction)
    {involved : Address → Prop} (hidle : s.pendingOn? p = none)
    (hinvolved : ∀ a, slot.effect.account? = some a → involved a) :
    s.Changes { s with pending := s.pending.insert p slot } p involved where
  rules := rfl
  addresses := rfl
  views := by
    intro q hq
    unfold view
    rw [(onlySlot_fill s p slot).slots q hq]
  book := rfl
  accounts _ _ := rfl
  effects := by
    intro a ha
    apply mem_pendingEffects_congr (onlySlot_fill s p slot).slots
    · intro other hother
      rw [hidle] at hother
      cases hother
    · intro other hother heffect
      rw [pendingOn?, SortedMap.get?_insert_self] at hother
      cases hother
      exact ha (hinvolved a heffect)

lemma changes_drop (s : Settlement) {slot : PendingTransaction} (resolution : Resolution)
    {involved : Address → Prop} (hroom : s.resolutions.size < s.resolutions.capacity)
    (hslot : s.pendingOn? p = some slot)
    (hinvolved : ∀ a, slot.effect.account? = some a → involved a) :
    s.Changes { s with
      pending := s.pending.erase p
      resolutions := s.resolutions.record (p, slot.txid) resolution } p involved where
  rules := rfl
  addresses := rfl
  views := by
    intro q hq
    have houtcomes : (s.resolutions.record (p, slot.txid) resolution).get? q =
        s.resolutions.get? q := by
      funext id
      rw [ResolutionLog.get?_record_of_room hroom, if_neg]
      intro hsame
      exact hq (congrArg Prod.fst hsame).symm
    unfold view
    rw [(onlySlot_drop s p _).slots q hq, houtcomes]
  book := rfl
  accounts _ _ := rfl
  effects := by
    intro a ha
    apply mem_pendingEffects_congr (onlySlot_drop s p _).slots
    · intro other hother heffect
      rw [hslot] at hother
      cases hother
      exact ha (hinvolved a heffect)
    · intro other hother
      rw [pendingOn?, SortedMap.get?_erase_self] at hother
      cases hother

lemma changes_store (s : Settlement) (p : Address) (account? : Option Account)
    {involved : Address → Prop}
    (hinvolved : ∀ account, account? = some account → involved account.id) :
    s.Changes { s with accounts := account?.elim s.accounts s.accounts.store } p involved where
  rules := rfl
  addresses := rfl
  views _ _ := rfl
  book := by cases account? <;> rfl
  accounts := by
    intro a ha
    rw [AccountBook.get?_elim_store, if_neg]
    intro hstored
    obtain ⟨account, haccount, rfl⟩ := Option.map_eq_some_iff.1 hstored
    exact ha (hinvolved account haccount)
  effects _ _ _ := Iff.rfl

lemma changes_commit (s : Settlement) {slot : PendingTransaction} (account? : Option Account)
    (flows : Flows) {involved : Address → Prop}
    (hroom : s.resolutions.size < s.resolutions.capacity) (hslot : s.pendingOn? p = some slot)
    (hinvolved : ∀ a, slot.effect.account? = some a → involved a)
    (hstored : ∀ account, account? = some account → involved account.id) :
    s.Changes { s with
      registry := { s.registry with pools := s.registry.pools.insert p slot.staged }
      flows := ⟨s.flows.flows.insert p flows⟩
      accounts := account?.elim s.accounts s.accounts.store
      pending := s.pending.erase p
      resolutions := s.resolutions.record (p, slot.txid) .finalized } p involved := by
  have hflows : ∀ q, q ≠ p → (s.flows.flows.insert p flows).get? q = s.flows.flows.get? q := by
    intro q hq
    rw [SortedMap.get?_insert, if_neg (mt Key.same_iff.1 hq.symm)]
  have hfund := s.changes_fund p slot.staged ⟨s.flows.flows.insert p flows⟩ hflows involved
  exact hfund.trans ((changes_store _ p account? hstored).trans
    (changes_drop _ .finalized hroom hslot hinvolved))

lemma affected?_of_pending {txid poolKey : String} {slot : PendingTransaction}
    (hnamed : Txid.parse txid = .ok slot.txid) (hkeyed : s.registry.addressForKey poolKey = .ok p)
    (hslot : s.pendingOn? p = some slot) :
    Call.affected? s txid poolKey = slot.effect.account? := by
  rw [Call.affected?, named?_eq_some hnamed hkeyed hslot, Option.bind_some, hslot, Option.bind_some]

/-- What an accepted execution stages is for the pool that the call is aimed at, and it has an
effect on no other account than the one that the call involves. -/
lemma of_prepare_of_target {request : ExecuteRequest} {confirmed : List CoinId} {now : Timestamp}
    {prepared : Prepared} (hfiled : s.registry.Filed)
    (h : s.prepare request now = .ok prepared)
    (htarget : (Call.execute request confirmed now).target? s = some p) :
    prepared.plan.staged.address = p ∧ s.pendingOn? p = none ∧
      ∀ a, prepared.effect.account? = some a →
        (Call.execute request confirmed now).Involves s a := by
  obtain ⟨i, pool, post, hbasis, hidle, -⟩ := exists_basis_of_prepare h
  obtain ⟨_, -, -, -, -, hplan, heffect⟩ := of_prepare_eq_ok h
  have hpool : i.pool = p := by
    simpa [Call.target?, hbasis.selected, Except.toOption] using htarget
  subst hpool
  refine ⟨address_of_basis hfiled hbasis, hidle, ?_⟩
  intro a ha
  have hparse := Rules.parse_of_plan_eq_ok hplan hbasis.selected
  have hinitiator := hbasis.initiator
  rcases accountEffect_cases heffect with ⟨-, hnone⟩ | ⟨haction, hregisters, -⟩ |
    ⟨haction, hwithdraws, -⟩
  · rw [hnone] at ha
    cases ha
  · rw [hregisters] at ha
    rw [haction] at hparse
    exact ⟨hinitiator ▸ Option.some.inj ha, i, hbasis.selected, .inl hparse⟩
  · rw [hwithdraws] at ha
    rw [haction] at hparse
    exact ⟨hinitiator ▸ Option.some.inj ha, i, hbasis.selected, .inr hparse⟩

/-- A resolution is aimed at the pool that its key leads to. -/
lemma keyed_of_target {poolKey : String}
    (htarget : (s.registry.addressForKey poolKey).toOption = some p) :
    s.registry.addressForKey poolKey = .ok p := by
  cases hkey : s.registry.addressForKey poolKey with
  | error refusal =>
    rw [hkey] at htarget
    cases htarget
  | ok q =>
    rw [hkey] at htarget
    exact congrArg Except.ok (Option.some.inj htarget)

/-- A call changes the pool that it is aimed at and the accounts that it involves, and no other. -/
theorem Moves.changes (h : Moves s call answer s') (hs : s.Consistent) (hbook : s.accounts.Filed)
    (hroom : s.resolutions.size < s.resolutions.capacity) (htarget : call.target? s = some p) :
    s.Changes s' p (fun a => call.Involves s a) := by
  cases h with
  | refused => exact .refl s p _
  | recommitted => exact .refl s p _
  | redropped => exact .refl s p _
  | registered => cases htarget
  | claimed => cases htarget
  | accrued => cases htarget
  | funded idle admitted _ recorded =>
    obtain rfl := Option.some.inj htarget
    obtain ⟨_, funded, -, -, -, -, -, rfl⟩ := Registry.deposit_eq_ok_iff.1 admitted
    obtain ⟨flows, -, rfl⟩ := FlowBook.record_eq_ok_iff.1 recorded
    apply changes_fund
    intro q hq
    rw [SortedMap.get?_insert, if_neg (mt Key.same_iff.1 hq.symm)]
  | unrecorded idle admitted =>
    obtain rfl := Option.some.inj htarget
    obtain ⟨_, funded, -, -, -, -, -, rfl⟩ := Registry.deposit_eq_ok_iff.1 admitted
    exact s.changes_fund _ funded s.flows (fun _ _ => rfl) _
  | @staged request confirmed now prepared checked known =>
    obtain ⟨haddress, hidle, hinvolves⟩ := of_prepare_of_target hs.filed checked htarget
    rw [haddress]
    exact s.changes_fill p _ hidle hinvolves
  | dropped named keyed pending =>
    obtain rfl := Except.ok.inj (keyed.symm.trans (keyed_of_target htarget))
    have haffected := affected?_of_pending named keyed pending
    exact s.changes_drop .rolledBack hroom pending fun a ha => haffected.trans ha
  | @committed _ _ _ pool slot account? _ _ named keyed pending _ previewed next recorded =>
    obtain rfl := Except.ok.inj (keyed.symm.trans (keyed_of_target htarget))
    have haffected := affected?_of_pending named keyed pending
    have hnames := hbook.account?_of_preview previewed
    obtain ⟨_, -, -, -, rfl⟩ := Registry.commit_eq_ok_iff.1 next
    obtain ⟨flows, -, rfl⟩ := FlowBook.record_eq_ok_iff.1 recorded
    rw [hs.staged_address pending]
    apply s.changes_commit _ _ hroom pending
    · intro a ha
      exact haffected.trans ha
    · rintro account rfl
      exact haffected.trans hnames

lemma Moves.size_le (h : Moves s call answer s')
    (hroom : s.resolutions.size < s.resolutions.capacity) :
    s'.resolutions.capacity = s.resolutions.capacity ∧
      s'.resolutions.size ≤ s.resolutions.size + 1 := by
  cases h with
  | committed | dropped =>
    exact ⟨s.resolutions.record_capacity _ _, s.resolutions.size_record_le _ _ hroom⟩
  | _ => exact ⟨rfl, Nat.le_succ _⟩

end Settlement

end RuneSettlement
