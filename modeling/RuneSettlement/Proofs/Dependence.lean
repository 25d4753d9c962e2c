import RuneSettlement.Proofs.Footprints

/-!
# What a call depends on

A call is answered and does its work by what the state says of the pool that it is aimed at, of the
accounts that it involves and of the pending effects on these. In two states that say the same of
these, it gets the same answer and leaves the pool and the accounts the same
(`Settlement.perform_congr`).
-/

namespace RuneSettlement

/-! ### Checks that come to the same -/

/-- Both are refused for one reason, or both come to one value, which each writes in its own way. -/
inductive Outcome.Parallel {α β γ : Type} (f : γ → α) (g : γ → β) : Outcome α → Outcome β → Prop
  | refused (refusal : Refusal) : Parallel f g (.error refusal) (.error refusal)
  | accepted (c : γ) : Parallel f g (.ok (f c)) (.ok (g c))

namespace Outcome.Parallel

variable {α β γ δ : Type} {f : γ → α} {g : γ → β}

lemma cases {x : Outcome α} {y : Outcome β} (h : Parallel f g x y) :
    (∃ refusal, x = .error refusal ∧ y = .error refusal) ∨ ∃ c, x = .ok (f c) ∧ y = .ok (g c) := by
  cases h with
  | refused refusal => exact .inl ⟨refusal, rfl, rfl⟩
  | accepted c => exact .inr ⟨c, rfl, rfl⟩

lemma bind (x : Outcome δ) {k : δ → Outcome α} {l : δ → Outcome β}
    (h : ∀ d, Parallel f g (k d) (l d)) : Parallel f g (x >>= k) (x >>= l) := by
  cases x with
  | error refusal => exact .refused refusal
  | ok d => exact h d

lemma check {c : Prop} [Decidable c] {refusal : Refusal} {k : δ → Outcome α} {l : δ → Outcome β}
    {x : Outcome α} {y : Outcome β} (h : Parallel f g x y) :
    Parallel f g (if c then Except.error refusal >>= k else x)
      (if c then Except.error refusal >>= l else y) := by
  split
  · exact .refused refusal
  · exact h

end Outcome.Parallel

namespace Registry

variable {r r' : Registry} {p : Address}

lemma require_congr (h : r'.get? p = r.get? p) : r'.require p = r.require p := by
  rw [require, require, h]

/-- A deposit is admitted by the pool alone. -/
lemma deposit_congr (h : r'.get? p = r.get? p) (legA legB : Utxo) :
    Outcome.Parallel (fun funded => { r with pools := r.pools.insert p funded })
      (fun funded => { r' with pools := r'.pools.insert p funded })
      (r.deposit p legA legB) (r'.deposit p legA legB) := by
  unfold deposit
  rw [require_congr h]
  refine .bind _ fun pool => .check (.bind _ fun rune => .check (.bind _ fun amount =>
    .check (.bind _ fun funded => .accepted funded)))

/-- A commit is accepted by the pool that it replaces. -/
lemma commit_congr {staged : Pool} (h : r'.get? staged.address = r.get? staged.address) :
    Outcome.Parallel (fun _ : Unit => { r with pools := r.pools.insert staged.address staged })
      (fun _ => { r' with pools := r'.pools.insert staged.address staged })
      (r.commit staged) (r'.commit staged) := by
  unfold commit
  rw [require_congr h]
  refine .bind _ fun current => .check (.bind _ fun _ => .accepted ())

end Registry

namespace FlowBook

variable {b b' : FlowBook} {p : Address}

lemma flowsOf_congr (h : b'.flows.get? p = b.flows.get? p) : b'.flowsOf p = b.flowsOf p := by
  rw [flowsOf, flowsOf, h]

lemma check_congr (h : b'.flows.get? p = b.flows.get? p) (inflow outflow actual : Reserves) :
    b'.check p inflow outflow actual = b.check p inflow outflow actual := by
  rw [check, check, flowsOf_congr h]

/-- Flows are recorded by what is recorded of the pool. -/
lemma record_congr (h : b'.flows.get? p = b.flows.get? p) (inflow outflow : Reserves) :
    Outcome.Parallel (fun flows => FlowBook.mk (b.flows.insert p flows))
      (fun flows => FlowBook.mk (b'.flows.insert p flows))
      (b.record p inflow outflow) (b'.record p inflow outflow) := by
  unfold record
  rw [flowsOf_congr h]
  exact .bind _ fun flows => .accepted flows

end FlowBook

namespace AccountBook

variable {b b' : AccountBook} {id : Address}

lemma require_congr (h : b'.get? id = b.get? id) : b'.require id = b.require id := by
  rw [require, require, h]

lemma checkAbsent_congr (h : b'.get? id = b.get? id) : b'.checkAbsent id = b.checkAbsent id := by
  unfold get? at h
  rw [checkAbsent, checkAbsent, SortedMap.contains, SortedMap.contains, h]

lemma checkWithdraw_congr (hcooldown : b'.cooldown = b.cooldown) (h : b'.get? id = b.get? id)
    (amount : Amount) (now : Timestamp) :
    b'.checkWithdraw id amount now = b.checkWithdraw id amount now := by
  rw [checkWithdraw, checkWithdraw, require_congr h, hcooldown]

/-- An effect is previewed on the account that it names. -/
lemma preview_congr {effect : AccountEffect}
    (h : ∀ id, effect.account? = some id → b'.get? id = b.get? id) (now : Timestamp) :
    b'.preview effect now = b.preview effect now := by
  cases effect with
  | none => rfl
  | register id =>
    simp only [preview, checkAbsent_congr (h id rfl)]
  | withdraw id amount =>
    simp only [preview, require_congr (h id rfl)]

end AccountBook

namespace Settlement

/-! ### States that say the same -/

variable {s t : Settlement} {p : Address} {involved : Address → Prop}

/-- Two states say the same of a pool and of the involved accounts. -/
structure SameAt (s t : Settlement) (p : Address) (involved : Address → Prop) : Prop where
  pool : t.registry.get? p = s.registry.get? p
  slot : t.pendingOn? p = s.pendingOn? p
  flows : t.flows.flows.get? p = s.flows.flows.get? p
  outcomes : t.resolutions.get? p = s.resolutions.get? p
  accounts : ∀ a, involved a → t.accounts.get? a = s.accounts.get? a

/-- Two states say the same of all that a call depends on which is aimed at a pool and involves
certain accounts. -/
structure Alike (s t : Settlement) (p : Address) (involved : Address → Prop) : Prop
    extends SameAt s t p involved where
  rules : t.rules = s.rules
  addresses : t.registry.addresses = s.registry.addresses
  cooldown : t.accounts.cooldown = s.accounts.cooldown
  effects : ∀ a, involved a → ∀ effect, effect ∈ t.pendingEffects a ↔ effect ∈ s.pendingEffects a

lemma SameAt.view (h : s.SameAt t p involved) : t.view p = s.view p := by
  unfold Settlement.view
  rw [h.pool, h.slot, h.flows, h.outcomes]

namespace Alike

lemma addressForKey (h : s.Alike t p involved) (key : String) :
    t.registry.addressForKey key = s.registry.addressForKey key := by
  rw [Registry.addressForKey, Registry.addressForKey, h.addresses]

lemma checkIdle (h : s.Alike t p involved) : t.checkIdle p = s.checkIdle p := by
  rw [Settlement.checkIdle, Settlement.checkIdle, h.slot]

lemma checkUnresolved (h : s.Alike t p involved) (id : Txid) :
    t.checkUnresolved p id = s.checkUnresolved p id := by
  rw [Settlement.checkUnresolved, Settlement.checkUnresolved, h.outcomes]

lemma isPending (h : s.Alike t p involved) (id : Txid) : t.isPending p id = s.isPending p id := by
  rw [Settlement.isPending, Settlement.isPending, h.slot]

lemma accountEffect (h : s.Alike t p involved) {plan : Plan} (now : Timestamp)
    (hinvolved : plan.action = .register ∨ plan.action = .withdraw → involved plan.initiator) :
    t.accountEffect plan now = s.accountEffect plan now := by
  unfold Settlement.accountEffect
  cases haction : plan.action with
  | swap => rfl
  | addLiquidity => rfl
  | register =>
    have hinitiator := hinvolved (.inl haction)
    have hpending : t.pendingEffects plan.initiator ≠ [] ↔
        s.pendingEffects plan.initiator ≠ [] := by
      simp only [ne_eq, List.eq_nil_iff_forall_not_mem, h.effects _ hinitiator]
    simp only [AccountBook.checkAbsent_congr (h.accounts _ hinitiator), hpending]
  | withdraw =>
    have hinitiator := hinvolved (.inr haction)
    have hpending : (t.pendingEffects plan.initiator).any AccountEffect.isWithdraw =
        (s.pendingEffects plan.initiator).any AccountEffect.isWithdraw := by
      rw [Bool.eq_iff_iff]
      simp only [List.any_eq_true, h.effects _ hinitiator]
    simp only [AccountBook.checkWithdraw_congr h.cooldown (h.accounts _ hinitiator), hpending]

/-- An execution is checked alike. -/
lemma prepare (h : s.Alike t p involved) {request : ExecuteRequest} {i : Intention}
    (now : Timestamp) (hselect : request.set.select request.index = .ok i) (hp : i.pool = p)
    (hinvolved : Action.parse i.action = .ok .register ∨ Action.parse i.action = .ok .withdraw →
      involved request.set.initiator) :
    t.prepare request now = s.prepare request now := by
  subst hp
  have hplan : t.rules.plan t.registry request.set request.index request.queueLength =
      s.rules.plan s.registry request.set request.index request.queueLength := by
    rw [h.rules]
    apply Rules.plan_congr
    intro j hj
    rw [hselect] at hj
    cases hj
    exact h.pool
  have heffect : ∀ plan, s.rules.plan s.registry request.set request.index request.queueLength =
      .ok plan → t.accountEffect plan now = s.accountEffect plan now := by
    intro plan haccepted
    obtain ⟨_, _, _, hbasis⟩ := Rules.exists_basis haccepted
    apply h.accountEffect
    rw [hbasis.initiator]
    intro haction
    apply hinvolved
    rw [Rules.parse_of_plan_eq_ok haccepted hselect]
    exact haction.imp (congrArg Except.ok) (congrArg Except.ok)
  unfold Settlement.prepare
  refine bind_congr fun payload => bind_congr fun txid => ?_
  rw [hselect, hplan]
  change (t.checkIdle i.pool >>= _) = (s.checkIdle i.pool >>= _)
  rw [h.checkIdle, h.checkUnresolved]
  refine bind_congr fun _ => bind_congr fun _ => ?_
  cases haccepted : s.rules.plan s.registry request.set request.index request.queueLength with
  | error refusal => rfl
  | ok plan =>
    change (t.accountEffect plan now >>= _) = (s.accountEffect plan now >>= _)
    rw [heffect plan haccepted]

end Alike

/-! ### Calls in alike states -/

/-- Two runs end with one answer, in states that say the same. -/
def Agree {α : Type} (p : Address) (involved : Address → Prop) (x y : Outcome α × Settlement) :
    Prop :=
  y.1 = x.1 ∧ x.2.SameAt y.2 p involved

lemma Agree.done {x : SettlementM Unit} (h : Agree p involved (x.run.run s) (x.run.run t)) :
    Agree p involved ((do x; return Receipt.done : SettlementM Receipt).run.run s)
      ((do x; return Receipt.done : SettlementM Receipt).run.run t) := by
  rw [run_bind, run_bind]
  obtain ⟨hanswer, hsame⟩ := h
  generalize x.run.run s = before at *
  generalize x.run.run t = after at *
  obtain ⟨answer, next⟩ := before
  obtain ⟨answer', next'⟩ := after
  obtain rfl : answer' = answer := hanswer
  cases answer' with
  | ok _ => exact ⟨rfl, hsame⟩
  | error refusal => exact ⟨rfl, hsame⟩

lemma perform_deposit_congr (h : s.Alike t p involved) (legA legB : Utxo) :
    Agree p involved (s.perform (.deposit p legA legB)) (t.perform (.deposit p legA legB)) := by
  apply Agree.done
  simp only [Settlement.deposit, run_bind, run_get, run_ofOutcome, run_set, h.checkIdle]
  cases s.checkIdle p with
  | error refusal => exact ⟨rfl, h.toSameAt⟩
  | ok _ =>
    rcases (Registry.deposit_congr h.pool legA legB).cases with
      ⟨refusal, hs, ht⟩ | ⟨funded, hs, ht⟩
    · rw [hs, ht]
      exact ⟨rfl, h.toSameAt⟩
    · have hrequire : ∀ r : Registry,
          Registry.require { r with pools := r.pools.insert p funded } p = .ok funded := by
        intro r
        rw [Registry.require, Registry.get?_insert, if_pos rfl]
        rfl
      rw [hs, ht]
      simp only [hrequire]
      rcases (FlowBook.record_congr h.flows funded.reserves .empty).cases with
        ⟨refusal, hs, ht⟩ | ⟨flows, hs, ht⟩
      · rw [hs, ht]
        refine ⟨rfl, ?_, h.slot, h.flows, h.outcomes, h.accounts⟩
        simp only [Registry.get?_insert, if_true]
      · rw [hs, ht]
        refine ⟨rfl, ?_, h.slot, ?_, h.outcomes, h.accounts⟩
        · simp only [Registry.get?_insert, if_true]
        · simp only [SortedMap.get?_insert_self]

lemma perform_execute_congr (h : s.Alike t p involved) {request : ExecuteRequest}
    {confirmed : List CoinId} {now : Timestamp}
    (htarget : (Call.execute request confirmed now).target? s = some p)
    (hinvolved : ∀ a, (Call.execute request confirmed now).Involves s a → involved a) :
    Agree p involved (s.perform (.execute request confirmed now))
      (t.perform (.execute request confirmed now)) := by
  cases hselect : request.set.select request.index with
  | error refusal =>
    rw [Call.target?, hselect] at htarget
    cases htarget
  | ok i =>
    have hp : i.pool = p := by
      rw [Call.target?, hselect] at htarget
      exact Option.some.inj htarget
    have hprepare : t.prepare request now = s.prepare request now := by
      apply h.prepare now hselect hp
      intro haction
      exact hinvolved _ ⟨rfl, i, hselect, haction⟩
    simp only [perform, Call.act, Settlement.execute, run_bind, run_get, run_ofOutcome, run_set,
      run_pure, hprepare]
    cases s.prepare request now with
    | error refusal => exact ⟨rfl, h.toSameAt⟩
    | ok prepared =>
      dsimp only
      cases prepared.plan.checkConfirmed confirmed with
      | error refusal => exact ⟨rfl, h.toSameAt⟩
      | ok _ =>
        refine ⟨rfl, h.pool, ?_, h.flows, h.outcomes, h.accounts⟩
        have hslot := h.slot
        unfold pendingOn? at hslot ⊢
        rw [SortedMap.get?_insert, SortedMap.get?_insert, hslot]

lemma commitPending_congr (h : s.Alike t p involved) {slot : PendingTransaction} (now : Timestamp)
    (hroom : s.resolutions.size < s.resolutions.capacity)
    (hroom' : t.resolutions.size < t.resolutions.capacity)
    (hslot : s.pendingOn? p = some slot) (hstaged : slot.staged.address = p)
    (hinvolved : ∀ a, slot.effect.account? = some a → involved a) :
    Agree p involved ((commitPending p now).run.run s) ((commitPending p now).run.run t) := by
  have hpreview : t.accounts.preview slot.effect now = s.accounts.preview slot.effect now :=
    AccountBook.preview_congr (fun a ha => h.accounts a (hinvolved a ha)) now
  have hcheck := FlowBook.check_congr h.flows slot.inflow slot.outflow slot.staged.reserves
  have hpool : t.registry.get? slot.staged.address = s.registry.get? slot.staged.address := by
    rw [hstaged]
    exact h.pool
  simp only [commitPending, run_bind, run_get, run_ofOutcome, run_set, h.slot, hslot,
    Outcome.ofOption, hpreview, hcheck]
  cases s.flows.check p slot.inflow slot.outflow slot.staged.reserves with
  | error refusal => exact ⟨rfl, h.toSameAt⟩
  | ok _ =>
    cases s.accounts.preview slot.effect now with
    | error refusal => exact ⟨rfl, h.toSameAt⟩
    | ok account? =>
      rcases (Registry.commit_congr hpool).cases with ⟨refusal, hs, ht⟩ | ⟨-, hs, ht⟩
      · rw [hs, ht]
        exact ⟨rfl, h.toSameAt⟩
      · rw [hs, ht]
        dsimp only
        rcases (FlowBook.record_congr h.flows slot.inflow slot.outflow).cases with
          ⟨refusal, hs, ht⟩ | ⟨flows, hs, ht⟩
        · rw [hs, ht]
          refine ⟨rfl, ?_, h.slot, h.flows, h.outcomes, h.accounts⟩
          simp only [Registry.get?_insert, h.pool]
        · rw [hs, ht]
          refine ⟨rfl, ?_, ?_, ?_, ?_, ?_⟩
          · simp only [Registry.get?_insert, h.pool]
          · simp only [pendingOn?, SortedMap.get?_erase_self]
          · simp only [SortedMap.get?_insert_self]
          · funext id
            simp only [ResolutionLog.get?_record_of_room hroom,
              ResolutionLog.get?_record_of_room hroom', h.outcomes]
          · intro a ha
            simp only [AccountBook.get?_elim_store, h.accounts a ha]

lemma perform_finalize_congr (h : s.Alike t p involved) (hs : s.Consistent) {text poolKey : String}
    {now : Timestamp} (hroom : s.resolutions.size < s.resolutions.capacity)
    (hroom' : t.resolutions.size < t.resolutions.capacity)
    (htarget : (Call.finalize text poolKey now).target? s = some p)
    (hinvolved : ∀ a, (Call.finalize text poolKey now).Involves s a → involved a) :
    Agree p involved (s.perform (.finalize text poolKey now))
      (t.perform (.finalize text poolKey now)) := by
  have hkeyed : s.registry.addressForKey poolKey = .ok p := keyed_of_target htarget
  apply Agree.done
  simp only [Settlement.finalize, run_bind, run_get, run_ofOutcome, run_ite, run_pure, run_throw]
  cases hnamed : Txid.parse text with
  | error refusal => exact ⟨rfl, h.toSameAt⟩
  | ok id =>
    dsimp only
    rw [h.addressForKey, hkeyed]
    dsimp only
    rw [h.isPending, h.outcomes]
    by_cases hpending : s.isPending p id = true
    · rw [if_pos hpending, if_pos hpending]
      obtain ⟨slot, hslot, rfl⟩ := isPending_iff.1 hpending
      have haffected := affected?_of_pending hnamed hkeyed hslot
      apply commitPending_congr h now hroom hroom' hslot (hs.staged_address hslot)
      intro a ha
      exact hinvolved a (haffected.trans ha)
    · rw [if_neg hpending, if_neg hpending]
      by_cases hlogged : s.resolutions.get? p id = some .finalized
      · rw [if_pos hlogged, if_pos hlogged]
        exact ⟨rfl, h.toSameAt⟩
      · rw [if_neg hlogged, if_neg hlogged]
        exact ⟨rfl, h.toSameAt⟩

lemma perform_rollback_congr (h : s.Alike t p involved) {text poolKey : String}
    (hroom : s.resolutions.size < s.resolutions.capacity)
    (hroom' : t.resolutions.size < t.resolutions.capacity)
    (htarget : (Call.rollback text poolKey).target? s = some p) :
    Agree p involved (s.perform (.rollback text poolKey)) (t.perform (.rollback text poolKey)) := by
  have hkeyed : s.registry.addressForKey poolKey = .ok p := keyed_of_target htarget
  apply Agree.done
  simp only [Settlement.rollback, run_bind, run_get, run_set, run_ofOutcome, run_ite, run_pure,
    run_throw]
  cases Txid.parse text with
  | error refusal => exact ⟨rfl, h.toSameAt⟩
  | ok id =>
    dsimp only
    rw [h.addressForKey, hkeyed]
    dsimp only
    rw [h.isPending, h.outcomes]
    by_cases hpending : s.isPending p id = true
    · rw [if_pos hpending, if_pos hpending]
      refine ⟨rfl, h.pool, ?_, h.flows, ?_, h.accounts⟩
      · simp only [pendingOn?, SortedMap.get?_erase_self]
      · funext id
        simp only [ResolutionLog.get?_record_of_room hroom,
          ResolutionLog.get?_record_of_room hroom', h.outcomes]
    · rw [if_neg hpending, if_neg hpending]
      by_cases hlogged : s.resolutions.get? p id = some .finalized
      · rw [if_pos hlogged, if_pos hlogged]
        exact ⟨rfl, h.toSameAt⟩
      · rw [if_neg hlogged, if_neg hlogged]
        exact ⟨rfl, h.toSameAt⟩

/-- In alike states a call gets one answer and leaves its pool and its accounts the same. -/
theorem perform_congr {call : Call} (h : s.Alike t p (fun a => call.Involves s a))
    (hs : s.Consistent) (hroom : s.resolutions.size < s.resolutions.capacity)
    (hroom' : t.resolutions.size < t.resolutions.capacity) (htarget : call.target? s = some p) :
    Agree p (fun a => call.Involves s a) (s.perform call) (t.perform call) := by
  cases call with
  | deposit pool legA legB =>
    obtain rfl := Option.some.inj htarget
    exact perform_deposit_congr h legA legB
  | execute request confirmed now => exact perform_execute_congr h htarget fun _ ha => ha
  | finalize text poolKey now =>
    exact perform_finalize_congr h hs hroom hroom' htarget fun _ ha => ha
  | rollback text poolKey => exact perform_rollback_congr h hroom hroom' htarget
  | _ => cases htarget

end Settlement

end RuneSettlement
