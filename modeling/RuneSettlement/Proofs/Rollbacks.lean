import RuneSettlement.Proofs.Payouts
import RuneSettlement.Proofs.Slots

/-!
# Rollbacks

Until a pending transaction is resolved, no operation touches its slot, the committed pool behind
the slot or the flows of that pool (`Settlement.held_reached`). So a rollback leads back to the pool
that the execution has met, and the same swap or liquidity can be executed again with the same
outcome (`Settlement.rollback_restores`).
-/

namespace RuneSettlement

/-! ### The same intention again -/

namespace Rules

variable {rules : Rules} {registry : Registry} {i : Intention}

/-- What swaps and what adds liquidity is judged alike whoever initiates it. -/
lemma judge_initiator (initiator other : Address)
    (haction : Action.parse i.action = .ok .swap ∨ Action.parse i.action = .ok .addLiquidity) :
    rules.judge registry other i = rules.judge registry initiator i := by
  unfold judge
  rcases haction with haction | haction
  · rw [haction]
    rfl
  · rw [haction]
    rfl

/-- The same swap or liquidity in another set is planned alike, but for the initiator. -/
lemma plan_reselect {set other : IntentionSet} {index position queueLength : BitVec 32}
    {plan : Plan} (h : rules.plan registry set index queueLength = .ok plan)
    (hselect : set.select index = .ok i) (hagain : other.select position = .ok i)
    (haction : Action.parse i.action = .ok .swap ∨ Action.parse i.action = .ok .addLiquidity) :
    rules.plan registry other position queueLength =
      .ok { plan with initiator := other.initiator } := by
  unfold Rules.plan at h ⊢
  simp only [hselect, Outcome.bind_eq_ok_iff, Outcome.when_eq_ok_iff, Outcome.pure_eq_ok_iff,
    Except.ok.injEq, exists_eq_left'] at h
  obtain ⟨judged, hjudge, inflow, hinflow, outflow, houtflow, post, hpost, staged, hstaged, hfloor,
    rfl⟩ := h
  rw [← judge_initiator set.initiator other.initiator haction] at hjudge
  simp only [hagain, Outcome.bind_eq_ok_iff, Outcome.when_eq_ok_iff, Outcome.pure_eq_ok_iff,
    Except.ok.injEq, exists_eq_left']
  exact ⟨judged, hjudge, inflow, hinflow, outflow, houtflow, post, hpost, staged, hstaged, hfloor,
    rfl⟩

end Rules

namespace Settlement

open ResolutionLog (Entry)

variable {s s' : Settlement} {call : Call} {answer : Outcome Receipt} {p : Address}
  {slot : PendingTransaction} {request : ExecuteRequest} {confirmed : List CoinId} {now : Timestamp}

/-! ### What is kept until a transaction is resolved -/

/-- The pool at an address and the flows recorded for it are the same in both states. -/
structure SamePool (s s' : Settlement) (p : Address) : Prop where
  pool : s'.registry.get? p = s.registry.get? p
  flows : s'.flows.flows.get? p = s.flows.flows.get? p

lemma SamePool.trans {s'' : Settlement} (h : s.SamePool s' p) (h' : s'.SamePool s'' p) :
    s.SamePool s'' p := ⟨h'.pool.trans h.pool, h'.flows.trans h.flows⟩

/-- A move that leaves a slot filled changes neither the pool behind it nor its flows. -/
lemma Moves.samePool (h : Moves s call answer s') (hs : s.Consistent)
    (hslot : s'.pendingOn? p = some slot) : s.SamePool s' p where
  pool := h.registry_frame hs hslot
  flows := by
    cases h with
    | funded idle _ _ recorded =>
      obtain ⟨flows, -, rfl⟩ := FlowBook.record_eq_ok_iff.1 recorded
      rw [SortedMap.get?_insert, if_neg (mt Key.same_iff.1 (ne_of_pendingOn? idle hslot))]
    | committed _ _ pending _ _ _ recorded =>
      obtain ⟨flows, -, rfl⟩ := FlowBook.record_eq_ok_iff.1 recorded
      rw [SortedMap.get?_insert, if_neg]
      -- The commit has emptied the slot of the pool whose flows it records.
      intro hsame
      rw [pendingOn?, SortedMap.get?_erase, if_pos hsame] at hslot
      cases hslot
    | _ => rfl

lemma samePool_operate (hs : s.Consistent) (operation : Operation)
    (hslot : (s.operate operation).2.pendingOn? p = some slot) :
    s.SamePool (s.operate operation).2 p := by
  cases operation with
  | call call => exact (moves_perform s call).samePool hs hslot
  | register pool =>
    rw [operate_register] at hslot ⊢
    cases hregister : s.registry.register pool with
    | error refusal => exact ⟨rfl, rfl⟩
    | ok registry =>
      rw [hregister] at hslot
      exact ⟨hs.get?_of_register hregister hslot, rfl⟩
  | setAccounts accounts => exact ⟨rfl, rfl⟩

/-- A slot stays filled unless its transaction is resolved. -/
lemma SlotMove.pendingOn?_eq {resolved? : Option Entry} (h : SlotMove s s' resolved?)
    (hslot : s.pendingOn? p = some slot)
    (hunresolved : ∀ resolution, resolved? ≠ some ((p, slot.txid), resolution)) :
    s'.pendingOn? p = some slot := by
  cases h with
  | kept pending => rw [pendingOn?, pending, ← pendingOn?, hslot]
  | filled _ idle _ pending =>
    rw [pendingOn?, pending, SortedMap.get?_insert,
      if_neg (mt Key.same_iff.1 (ne_of_pendingOn? idle hslot)), ← pendingOn?, hslot]
  | @emptied _ other resolution full pending =>
    rw [pendingOn?, pending, SortedMap.get?_erase, if_neg, ← pendingOn?, hslot]
    intro hsame
    obtain rfl := Key.same_iff.1 hsame
    obtain rfl := Option.some.inj (full.symm.trans hslot)
    exact hunresolved resolution rfl

/-- While no operation resolves a pending transaction, it stays pending on the pool that it was
staged for. -/
theorem held_reached {room : Nat} {history : List Entry} (h : s.Remembers room history)
    (hroom : 0 < room) (hslot : s.pendingOn? p = some slot) (later : List Operation)
    (hunresolved : ∀ resolution, ((p, slot.txid), resolution) ∉ s.resolved later) :
    (s.reached later).pendingOn? p = some slot ∧ s.SamePool (s.reached later) p := by
  induction later generalizing s history with
  | nil => exact ⟨hslot, rfl, rfl⟩
  | cons operation later ih =>
    simp only [resolved, List.mem_append, not_or] at hunresolved
    have hnext : (s.operate operation).2.pendingOn? p = some slot := by
      apply (slotMove_operate h.consistent operation).pendingOn?_eq hslot
      intro resolution hresolves
      exact (hunresolved resolution).1 (Option.mem_toList.2 hresolves)
    obtain ⟨hheld, hsame⟩ := ih (h.operate hroom operation) hnext
      fun resolution => (hunresolved resolution).2
    exact ⟨hheld, (samePool_operate h.consistent operation hnext).trans hsame⟩

lemma rules_reached (s : Settlement) (operations : List Operation) :
    (s.reached operations).rules = s.rules := by
  induction operations using List.reverseRecOn with
  | nil => rfl
  | append_singleton operations operation ih =>
    rw [reached_concat, ← ih]
    cases operation with
    | call call => exact (moves_perform _ call).rules_eq
    | register pool =>
      rw [operate_register]
      cases (s.reached operations).registry.register pool <;> rfl
    | setAccounts accounts => rfl

/-! ### Executions -/

/-- The two states differ in the slot of one pool and in the log at most. -/
structure OnlySlot (s s' : Settlement) (p : Address) : Prop where
  rules : s'.rules = s.rules
  registry : s'.registry = s.registry
  accounts : s'.accounts = s.accounts
  flows : s'.flows = s.flows
  slots : ∀ q, q ≠ p → s'.pendingOn? q = s.pendingOn? q

lemma OnlySlot.samePool (h : s.OnlySlot s' p) (q : Address) : s.SamePool s' q where
  pool := by rw [h.registry]
  flows := by rw [h.flows]

lemma onlySlot_fill (s : Settlement) (p : Address) (slot : PendingTransaction) :
    s.OnlySlot { s with pending := s.pending.insert p slot } p where
  rules := rfl
  registry := rfl
  accounts := rfl
  flows := rfl
  slots := by
    intro q hq
    rw [pendingOn?, SortedMap.get?_insert, if_neg (mt Key.same_iff.1 (Ne.symm hq))]
    rfl

lemma onlySlot_drop (s : Settlement) (p : Address) (resolutions : ResolutionLog) :
    s.OnlySlot { s with pending := s.pending.erase p, resolutions } p where
  rules := rfl
  registry := rfl
  accounts := rfl
  flows := rfl
  slots := by
    intro q hq
    rw [pendingOn?, SortedMap.get?_erase, if_neg (mt Key.same_iff.1 (Ne.symm hq))]
    rfl

lemma perform_execute_of_prepare {prepared : Prepared}
    (hchecked : s.prepare request now = .ok prepared)
    (hknown : prepared.plan.checkConfirmed confirmed = .ok ()) :
    s.perform (.execute request confirmed now) =
      (.ok (.staged prepared.stagedExecution), { s with
        pending := s.pending.insert prepared.plan.staged.address
          (prepared.pendingTransaction request now) }) := by
  simp only [perform, Call.act, Settlement.execute, run_bind, run_get, run_ofOutcome, run_set,
    run_pure, hchecked, hknown]
  rfl

lemma exists_prepared {staged : StagedExecution}
    (h : s.perform (.execute request confirmed now) = (.ok (.staged staged), s')) :
    ∃ prepared, s.prepare request now = .ok prepared ∧
      prepared.plan.checkConfirmed confirmed = .ok () ∧ staged = prepared.stagedExecution ∧
      s' = { s with
        pending := s.pending.insert prepared.plan.staged.address
          (prepared.pendingTransaction request now) } := by
  have hmove := s.moves_execute request confirmed now
  simp only [h] at hmove
  cases hmove with
  | staged checked known => exact ⟨_, checked, known, rfl, rfl⟩

lemma decodePayload_of_prepare {prepared : Prepared} (h : s.prepare request now = .ok prepared) :
    decodePayload request.payload = .ok prepared.payload := by
  simp only [prepare, Outcome.bind_eq_ok_iff, Outcome.pure_eq_ok_iff] at h
  obtain ⟨_, hpayload, _, -, _, -, _, -, _, -, _, -, _, -, rfl⟩ := h
  exact hpayload

/-- A request for an intention of another request once more, one without an effect on accounts. -/
structure Repeats (again request : ExecuteRequest) (i : Intention) : Prop where
  first : request.set.select request.index = .ok i
  second : again.set.select again.index = .ok i
  queueLength : again.queueLength = request.queueLength
  action : Action.parse i.action = .ok .swap ∨ Action.parse i.action = .ok .addLiquidity

lemma Repeats.kind {again : ExecuteRequest} {i : Intention} {action : Action}
    (h : Repeats again request i) (haction : Action.parse i.action = .ok action) :
    action = .swap ∨ action = .addLiquidity := by
  rcases h.action with hparse | hparse
  · exact .inl (Except.ok.inj (haction.symm.trans hparse))
  · exact .inr (Except.ok.inj (haction.symm.trans hparse))

lemma accountEffect_of_kind {plan : Plan}
    (hkind : plan.action = .swap ∨ plan.action = .addLiquidity) (now : Timestamp) :
    s.accountEffect plan now = .ok .none := by
  unfold accountEffect
  rcases hkind with hkind | hkind
  · rw [hkind]
  · rw [hkind]

/-- On the same pool with an empty slot the same intention is prepared again, for another
transaction. -/
lemma prepare_again {prepared : Prepared} {again : ExecuteRequest} {i : Intention} {txid : Txid}
    {payload : Bytes} (hchecked : s.prepare request now = .ok prepared) (hfiled : s.registry.Filed)
    (hagain : Repeats again request i) (hrules : s'.rules = s.rules)
    (hsame : s.SamePool s' prepared.plan.staged.address)
    (hidle : s'.pendingOn? prepared.plan.staged.address = none)
    (hfresh : s'.resolutions.get? prepared.plan.staged.address txid = none)
    (hpayload : decodePayload again.payload = .ok payload)
    (htxid : Txid.parse again.txid = .ok txid) (moment : Timestamp) :
    prepared.effect = .none ∧
      s'.prepare again moment = .ok
        ⟨txid, payload, { prepared.plan with initiator := again.set.initiator }, .none⟩ := by
  obtain ⟨_, -, -, -, -, hplan, heffect⟩ := of_prepare_eq_ok hchecked
  obtain ⟨j, _, _, hbasis⟩ := Rules.exists_basis hplan
  obtain rfl : i = j := Except.ok.inj (hagain.first.symm.trans hbasis.selected)
  rw [address_of_basis hfiled hbasis] at hsame hidle hfresh
  have hkind := hagain.kind (Rules.parse_of_plan_eq_ok hplan hbasis.selected)
  refine ⟨Except.ok.inj (heffect.symm.trans (accountEffect_of_kind hkind now)), ?_⟩
  have hpools : ∀ j, again.set.select again.index = .ok j →
      s'.registry.get? j.pool = s.registry.get? j.pool := by
    intro j hj
    rw [hagain.second] at hj
    cases hj
    exact hsame.pool
  have hreplan := Rules.plan_reselect hplan hbasis.selected hagain.second hagain.action
  rw [← hrules, ← Rules.plan_congr hpools, ← hagain.queueLength] at hreplan
  have hnone : s'.accountEffect { prepared.plan with initiator := again.set.initiator } moment =
      .ok .none := by
    apply accountEffect_of_kind
    exact hkind
  simp only [prepare, Outcome.bind_eq_ok_iff, Outcome.pure_eq_ok_iff]
  exact ⟨payload, hpayload, txid, htxid, i, hagain.second, (), checkIdle_eq_ok_iff.2 hidle, (),
    checkUnresolved_eq_ok_iff.2 hfresh, _, hreplan, .none, hnone, rfl⟩

/-- The same intention is accepted again where its pool is the same, and fills the slot alike. -/
lemma perform_again {prepared : Prepared} {again : ExecuteRequest} {i : Intention} {txid : Txid}
    {payload : Bytes} (hchecked : s.prepare request now = .ok prepared)
    (hknown : prepared.plan.checkConfirmed confirmed = .ok ()) (hfiled : s.registry.Filed)
    (hagain : Repeats again request i) (hrules : s'.rules = s.rules)
    (hsame : s.SamePool s' prepared.plan.staged.address)
    (hidle : s'.pendingOn? prepared.plan.staged.address = none)
    (hfresh : s'.resolutions.get? prepared.plan.staged.address txid = none)
    (hpayload : decodePayload again.payload = .ok payload)
    (htxid : Txid.parse again.txid = .ok txid) (moment : Timestamp) :
    s'.perform (.execute again confirmed moment) =
      (.ok (.staged { prepared.stagedExecution with txid, payload }), { s' with
        pending := s'.pending.insert prepared.plan.staged.address
          { prepared.pendingTransaction request now with
            txid
            set := again.set
            index := again.index
            payload
            createdAt := moment } }) := by
  obtain ⟨hnone, hprepared⟩ := prepare_again hchecked hfiled hagain hrules hsame hidle hfresh
    hpayload htxid moment
  rw [perform_execute_of_prepare hprepared hknown]
  simp only [Prepared.pendingTransaction, Prepared.stagedExecution, hnone]

/-- A state that operations lead to. -/
def Reachable (s : Settlement) : Prop :=
  ∃ rules accounts capacity operations, s = (create rules accounts capacity).reached operations

lemma Reachable.reached (h : s.Reachable) (later : List Operation) :
    (s.reached later).Reachable := by
  obtain ⟨rules, accounts, capacity, operations, rfl⟩ := h
  exact ⟨rules, accounts, capacity, operations ++ later, (reached_append _ _ _).symm⟩

lemma Reachable.perform (h : s.Reachable) (call : Call) : (s.perform call).2.Reachable :=
  h.reached [.call call]

lemma Reachable.exists_remembers (h : s.Reachable) :
    ∃ room history, 0 < room ∧ s.Remembers room history := by
  obtain ⟨rules, accounts, capacity, operations, rfl⟩ := h
  exact ⟨_, _, Nat.lt_of_lt_of_le Nat.one_pos (Nat.le_max_left 1 capacity),
    remembers_reached rules accounts capacity operations⟩

/-- The pool that an execution was prepared against. -/
lemma exists_pool_of_prepare {prepared : Prepared} (hfiled : s.registry.Filed)
    (h : s.prepare request now = .ok prepared) :
    ∃ pool, s.registry.get? prepared.plan.staged.address = some pool ∧
      prepared.plan.staged.keys = pool.keys := by
  obtain ⟨i, pool, post, hbasis, -⟩ := exists_basis_of_prepare h
  refine ⟨pool, ?_, (Pool.succeeds_of_stage hbasis.staged).keys⟩
  rw [address_of_basis hfiled hbasis]
  exact hbasis.committed

/-- Since `s` a transaction is pending on the pool with a key, and the pool is as it was. -/
structure Outstanding (s s' : Settlement) (p : Address) (key : String)
    (slot : PendingTransaction) : Prop where
  rules : s'.rules = s.rules
  held : s'.pendingOn? p = some slot
  kept : s.SamePool s' p
  keyed : s'.registry.addressForKey key = .ok p

/-- The transaction of an execution is outstanding until it is resolved. -/
lemma outstanding_reached {executed : Settlement} {prepared : Prepared} (hs : s.Reachable)
    (hchecked : s.prepare request now = .ok prepared)
    (hexecuted : (s.perform (.execute request confirmed now)).2 = executed)
    (hfills : s.OnlySlot executed prepared.plan.staged.address)
    (hfilled : executed.pendingOn? prepared.plan.staged.address =
      some (prepared.pendingTransaction request now))
    (later : List Operation)
    (hunresolved : ∀ resolution,
      ((prepared.plan.staged.address, prepared.txid), resolution) ∉ executed.resolved later) :
    s.Outstanding (executed.reached later) prepared.plan.staged.address
      prepared.plan.staged.keys.untweaked (prepared.pendingTransaction request now) := by
  have hreachable := hs.perform (.execute request confirmed now)
  rw [hexecuted] at hreachable
  obtain ⟨_, _, hroom, hremembers⟩ := hreachable.exists_remembers
  obtain ⟨_, _, -, hlast⟩ := (hreachable.reached later).exists_remembers
  obtain ⟨_, _, -, hmet⟩ := hs.exists_remembers
  obtain ⟨pool, hpool, hkeys⟩ := exists_pool_of_prepare hmet.consistent.filed hchecked
  obtain ⟨hheld, hsame⟩ := held_reached hremembers hroom hfilled later hunresolved
  have hkept := (hfills.samePool _).trans hsame
  refine ⟨(rules_reached executed later).trans hfills.rules, hheld, hkept, ?_⟩
  rw [hkeys]
  exact hlast.keyed _ pool (hkept.pool.trans hpool)

namespace Sample

def funded : List Operation := (staging.take 2).map .call

def swapping (n : UInt8) : ExecuteRequest := ⟨"00", (txid n).text, ⟨"trader", [swap]⟩, 0#32, 0#32⟩

def execution (n : UInt8) : StagedExecution := ⟨txid n, "pool", "untweaked", [], [0]⟩

/-- Calls on the same pool that are refused, and another pool. -/
def between : List Operation :=
  [.call (.deposit "pool" legA legB), .call (.execute (swapping 3) [] 0#64),
    .call (.finalize (txid 3).text "untweaked" 0#64),
    .register (.create "other" ⟨"other", "other", [], "other"⟩ token 1#128 "")]

end Sample

/-- A rollback undoes an execution. After any operations that do not resolve the transaction, its
rollback is accepted; then the pool and its flows are what the execution met, and the slot is empty.
Neither of the two calls has changed another pool, another slot or an account. A swap or liquidity
can then be executed again under a transaction that is not in the log, and stages the same. -/
theorem rollback_restores {executed : Settlement} {staged : StagedExecution} (hs : s.Reachable)
    (hexecuted : s.perform (.execute request confirmed now) = (.ok (.staged staged), executed))
    (later : List Operation)
    (hunresolved : ∀ resolution,
      ((staged.pool, staged.txid), resolution) ∉ executed.resolved later)
    {text : String} (htext : Txid.parse text = .ok staged.txid) :
    ∃ slot undone,
      executed.pendingOn? staged.pool = some slot ∧
      decodePayload request.payload = .ok staged.payload ∧
      (∃ pool, s.registry.get? staged.pool = some pool ∧ staged.poolKey = pool.keys.untweaked) ∧
      (executed.reached later).perform (.rollback text staged.poolKey) = (.ok .done, undone) ∧
      s.SamePool undone staged.pool ∧ undone.pendingOn? staged.pool = none ∧
      s.OnlySlot executed staged.pool ∧ (executed.reached later).OnlySlot undone staged.pool ∧
      ∀ again i txid payload moment, Repeats again request i →
        decodePayload again.payload = .ok payload → Txid.parse again.txid = .ok txid →
        undone.resolutions.get? staged.pool txid = none →
        undone.perform (.execute again confirmed moment) =
          (.ok (.staged { staged with txid, payload }), { undone with
            pending := undone.pending.insert staged.pool { slot with
              txid
              set := again.set
              index := again.index
              payload
              createdAt := moment } }) := by
  obtain ⟨prepared, hchecked, hknown, rfl, hfill⟩ := exists_prepared hexecuted
  obtain ⟨_, _, -, hmet⟩ := hs.exists_remembers
  have hfiled := hmet.consistent.filed
  obtain ⟨pool, hpool, hkeys⟩ := exists_pool_of_prepare hfiled hchecked
  have hfilled : executed.pendingOn? prepared.plan.staged.address =
      some (prepared.pendingTransaction request now) := by
    rw [hfill, pendingOn?, SortedMap.get?_insert, if_pos (Key.same_iff.2 rfl)]
  have hfills : s.OnlySlot executed prepared.plan.staged.address := by
    rw [hfill]
    exact onlySlot_fill s _ _
  have hstands := outstanding_reached hs hchecked (congrArg Prod.snd hexecuted) hfills hfilled
    later hunresolved
  have hrollback := perform_rollback_of_pending htext hstands.keyed
    (isPending_iff.2 ⟨_, hstands.held, rfl⟩)
  have hdrops := (executed.reached later).onlySlot_drop prepared.plan.staged.address
    ((executed.reached later).resolutions.record
      (prepared.plan.staged.address, prepared.txid) .rolledBack)
  have hrestored := hstands.kept.trans (hdrops.samePool _)
  have hempty := (executed.reached later).pending.get?_erase_self prepared.plan.staged.address
  refine ⟨_, _, hfilled, decodePayload_of_prepare hchecked, ⟨pool, hpool, ?_⟩, hrollback,
    hrestored, hempty, hfills, hdrops, ?_⟩
  · rw [Prepared.stagedExecution, hkeys]
  · intro again i txid payload moment hagain hpayload htxid hfresh
    apply perform_again hchecked hknown hfiled hagain
    · exact hstands.rules
    · exact hrestored
    · exact hempty
    · exact hfresh
    · exact hpayload
    · exact htxid

theorem rollback_restores_sample :
    let s := (create Sample.rules (.create 0#64 0#128) 10).reached Sample.funded
    let staged := Sample.execution 2
    let executed := (s.perform (.execute (Sample.swapping 2) [] 0#64)).2
    ∃ undone, (executed.reached Sample.between).perform
        (.rollback (Sample.txid 2).text staged.poolKey) = (.ok .done, undone) ∧
      undone.registry.get? "pool" = s.registry.get? "pool" ∧
      (undone.perform (.execute (Sample.swapping 4) [] 5#64)).1 =
        .ok (.staged (Sample.execution 4)) := by
  intro s staged executed
  obtain ⟨haccepted, hresolved, htext, hfresh⟩ :
      (s.perform (.execute (Sample.swapping 2) [] 0#64)).1 = .ok (.staged staged) ∧
      executed.resolved Sample.between = [] ∧
      Txid.parse (Sample.txid 2).text = .ok staged.txid ∧
      ((executed.reached Sample.between).perform
        (.rollback (Sample.txid 2).text staged.poolKey)).2.resolutions.get? staged.pool
          (Sample.txid 4) = none := by
    decide +kernel
  obtain ⟨haction, hpayload, hnext⟩ :
      Action.parse Sample.swap.action = .ok .swap ∧
      decodePayload (Sample.swapping 4).payload = .ok [0] ∧
      Txid.parse (Sample.swapping 4).txid = .ok (Sample.txid 4) := by
    decide +kernel
  have hselect : ∀ n, (Sample.swapping n).set.select (Sample.swapping n).index = .ok Sample.swap :=
    fun _ => rfl
  have hrepeats : Repeats (Sample.swapping 4) (Sample.swapping 2) Sample.swap :=
    ⟨hselect 2, hselect 4, rfl, .inl haction⟩
  have hexecuted : s.perform (.execute (Sample.swapping 2) [] 0#64) =
      (.ok (.staged staged), executed) := Prod.ext haccepted rfl
  have hunresolved : ∀ resolution, ((staged.pool, staged.txid), resolution) ∉
      executed.resolved Sample.between := by
    simp [hresolved]
  obtain ⟨slot, undone, -, -, -, hundone, hsame, -, -, -, hagain⟩ :=
    rollback_restores ⟨_, _, _, _, rfl⟩ hexecuted Sample.between hunresolved htext
  rw [hundone] at hfresh
  have hrestaged := hagain _ _ _ _ 5#64 hrepeats hpayload hnext hfresh
  exact ⟨undone, hundone, hsame.pool, congrArg Prod.fst hrestaged⟩

end Settlement

end RuneSettlement
