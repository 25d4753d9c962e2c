import RuneSettlement.Proofs.Runs
import RuneSettlement.Proofs.Staging

/-!
# Pending transactions agree with the committed pools

A call that touches the committed pool of an address finds the slot there empty or empties it, so
while a slot is filled the pool behind it stays as it was when the transaction was staged. In every
reachable state the plan of a pending transaction can be made again and comes out the same
(`Settlement.Consistent`), and a run tells which execution filled the slot (`pending_agrees`).
-/

namespace RuneSettlement

/-- Every committed pool is filed under its own address. -/
def Registry.Filed (r : Registry) : Prop :=
  ∀ address pool, r.get? address = some pool → pool.address = address

namespace Registry.Filed

variable {r r' : Registry}

lemma insert {address : Address} {pool : Pool} (hr : r.Filed) (h : pool.address = address) :
    Registry.Filed { r with pools := r.pools.insert address pool } := by
  intro other found hget
  rw [get?_insert] at hget
  split at hget
  · next heq =>
    cases hget
    rw [h, heq]
  · exact hr other found hget

lemma register {pool : Pool} (hr : r.Filed) (h : r.register pool = .ok r') : r'.Filed := by
  obtain ⟨-, -, rfl⟩ := register_eq_ok_iff.1 h
  exact hr.insert rfl

lemma deposit {address : Address} {legA legB : Utxo} (hr : r.Filed)
    (h : r.deposit address legA legB = .ok r') : r'.Filed := by
  obtain ⟨pool, funded, hpool, -, -, -, hfund, rfl⟩ := deposit_eq_ok_iff.1 h
  obtain ⟨_, _, -, -, rfl⟩ := Pool.fund_eq_ok_iff.1 hfund
  exact hr.insert (hr address pool hpool)

lemma commit {staged : Pool} (hr : r.Filed) (h : r.commit staged = .ok r') : r'.Filed := by
  obtain ⟨_, -, -, -, rfl⟩ := commit_eq_ok_iff.1 h
  exact hr.insert rfl

end Registry.Filed

structure PendingTransaction.Holds (slot : PendingTransaction) (plan : Plan) : Prop where
  staged : slot.staged = plan.staged
  inflow : slot.inflow = plan.inflow
  outflow : slot.outflow = plan.outflow

namespace Settlement

/-- A pending transaction that is filed under the address of the pool it stages and that the rules
would plan again as they did. -/
structure Replannable (s : Settlement) (address : Address) (slot : PendingTransaction)
    (queueLength : BitVec 32) : Prop where
  pool : slot.pool = address
  staged : slot.staged.address = address
  plan : ∃ plan, s.rules.plan s.registry slot.set slot.index queueLength = .ok plan ∧
    slot.Holds plan

/-- Every committed pool is filed under its own address, and every pending transaction can be
planned again. -/
structure Consistent (s : Settlement) : Prop where
  filed : s.registry.Filed
  slots : ∀ address slot, s.pendingOn? address = some slot →
    ∃ queueLength, s.Replannable address slot queueLength

variable {s s' : Settlement} {call : Call} {answer : Outcome Receipt}

lemma of_prepare_eq_ok {request : ExecuteRequest} {now : Timestamp} {prepared : Prepared}
    (h : s.prepare request now = .ok prepared) :
    ∃ i, request.set.select request.index = .ok i ∧ s.pendingOn? i.pool = none ∧
      s.resolutions.get? i.pool prepared.txid = none ∧
      Txid.parse request.txid = .ok prepared.txid ∧
      s.rules.plan s.registry request.set request.index request.queueLength = .ok prepared.plan ∧
      s.accountEffect prepared.plan now = .ok prepared.effect := by
  simp only [prepare, Outcome.bind_eq_ok_iff, Outcome.pure_eq_ok_iff] at h
  obtain ⟨payload, -, txid, htxid, i, hi, _, hidle, _, hnew, plan, hplan, effect, heffect, rfl⟩ := h
  exact ⟨i, hi, checkIdle_eq_ok_iff.1 hidle, checkUnresolved_eq_ok_iff.1 hnew, htxid, hplan,
    heffect⟩

lemma address_of_basis {plan : Plan} {rules : Rules} {registry : Registry} {set : IntentionSet}
    {index : BitVec 32} {i : Intention} {pool : Pool} {post : Reserves} (hfiled : registry.Filed)
    (h : plan.Basis rules registry set index i pool post) : plan.staged.address = i.pool := by
  have hkeys := (Pool.succeeds_of_stage h.staged).keys
  rw [Pool.address, hkeys]
  exact hfiled i.pool pool h.committed

/-- What an accepted execution rests on: the basis of its plan, an empty slot and a transaction that
is not in the log. -/
lemma exists_basis_of_prepare {request : ExecuteRequest} {now : Timestamp} {prepared : Prepared}
    (h : s.prepare request now = .ok prepared) :
    ∃ i pool post,
      prepared.plan.Basis s.rules s.registry request.set request.index i pool post ∧
      s.pendingOn? i.pool = none ∧ s.resolutions.get? i.pool prepared.txid = none ∧
      Txid.parse request.txid = .ok prepared.txid := by
  obtain ⟨i, hselect, hidle, hfresh, htext, hplan, -⟩ := of_prepare_eq_ok h
  obtain ⟨j, pool, post, hbasis⟩ := Rules.exists_basis hplan
  obtain rfl : i = j := Except.ok.inj (hselect.symm.trans hbasis.selected)
  exact ⟨i, pool, post, hbasis, hidle, hfresh, htext⟩

lemma Replannable.exists_basis {address : Address} {slot : PendingTransaction}
    {queueLength : BitVec 32} (hfiled : s.registry.Filed)
    (h : s.Replannable address slot queueLength) :
    ∃ plan i pool post, plan.Basis s.rules s.registry slot.set slot.index i pool post ∧
      slot.Holds plan ∧ i.pool = address := by
  obtain ⟨plan, hplan, hholds⟩ := h.plan
  obtain ⟨i, pool, post, hbasis⟩ := Rules.exists_basis hplan
  refine ⟨plan, i, pool, post, hbasis, hholds, ?_⟩
  rw [← address_of_basis hfiled hbasis, ← hholds.staged, h.staged]

lemma Consistent.exists_basis {address : Address} {slot : PendingTransaction} (hs : s.Consistent)
    (hslot : s.pendingOn? address = some slot) :
    ∃ plan i pool post, plan.Basis s.rules s.registry slot.set slot.index i pool post ∧
      slot.Holds plan ∧ i.pool = address := by
  obtain ⟨queueLength, hreplan⟩ := hs.slots address slot hslot
  exact hreplan.exists_basis hs.filed

lemma Consistent.exists_pool {address : Address} {slot : PendingTransaction} (hs : s.Consistent)
    (hslot : s.pendingOn? address = some slot) : ∃ pool, s.registry.get? address = some pool := by
  obtain ⟨_, i, pool, _, hbasis, -, rfl⟩ := hs.exists_basis hslot
  exact ⟨pool, hbasis.committed⟩

lemma ne_of_pendingOn? {p q : Address} {slot : PendingTransaction} (hidle : s.pendingOn? q = none)
    (hslot : s.pendingOn? p = some slot) : q ≠ p := by
  rintro rfl
  rw [hidle] at hslot
  cases hslot

/-- Behind a filled slot is a pool, so its address is not free for a new one. -/
lemma Consistent.get?_of_register {pool : Pool} {registry : Registry} {address : Address}
    {slot : PendingTransaction} (hs : s.Consistent) (h : s.registry.register pool = .ok registry)
    (hslot : s.pendingOn? address = some slot) :
    registry.get? address = s.registry.get? address := by
  obtain ⟨found, hfound⟩ := hs.exists_pool hslot
  rw [Registry.get?_of_register h, if_neg]
  intro heq
  rw [← heq, (Registry.register_eq_ok_iff.1 h).1] at hfound
  cases hfound

/-- A slot that is filled after a move was filled before it, or an execution has filled it. -/
lemma Moves.pending_cases {address : Address} {slot : PendingTransaction}
    (h : Moves s call answer s') (hslot : s'.pendingOn? address = some slot) :
    s.pendingOn? address = some slot ∨
      ∃ request confirmed now prepared, call = .execute request confirmed now ∧
        s.prepare request now = .ok prepared ∧
        slot = prepared.pendingTransaction request now ∧
        prepared.plan.staged.address = address := by
  cases h with
  | staged checked known =>
    next request confirmed now prepared =>
    by_cases heq : prepared.plan.staged.address = address
    · have : some (prepared.pendingTransaction request now) = some slot := by
        simpa [pendingOn?, SortedMap.get?_insert, heq] using hslot
      cases this
      exact .inr ⟨request, confirmed, now, prepared, rfl, checked, rfl, heq⟩
    · have : s.pending.get? address = some slot := by
        simpa [pendingOn?, SortedMap.get?_insert, heq] using hslot
      exact .inl this
  | committed | dropped =>
    have : s.pending.get? address = some slot := by
      simp only [pendingOn?, SortedMap.get?_erase] at hslot
      split at hslot
      · cases hslot
      · exact hslot
    exact .inl this
  | _ => exact .inl hslot

/-- No move changes the committed pool behind a slot that is filled after the move. -/
theorem Moves.registry_frame {address : Address} {slot : PendingTransaction}
    (h : Moves s call answer s') (hs : s.Consistent)
    (hslot : s'.pendingOn? address = some slot) :
    s'.registry.get? address = s.registry.get? address := by
  cases h with
  | registered new => exact hs.get?_of_register new hslot
  | funded idle admitted | unrecorded idle admitted =>
    obtain ⟨_, _, -, -, -, -, -, rfl⟩ := Registry.deposit_eq_ok_iff.1 admitted
    rw [Registry.get?_insert, if_neg (ne_of_pendingOn? idle hslot)]
  | committed named keyed pending balanced previewed next recorded =>
    obtain ⟨_, -, -, -, rfl⟩ := Registry.commit_eq_ok_iff.1 next
    obtain ⟨_, hreplan⟩ := hs.slots _ _ pending
    rw [Registry.get?_insert, hreplan.staged, if_neg]
    -- The commit has emptied the slot of the pool that it writes.
    intro heq
    simp [pendingOn?, SortedMap.get?_erase, heq] at hslot
  | _ => rfl

lemma Moves.rules_eq (h : Moves s call answer s') : s'.rules = s.rules := by
  cases h <;> rfl

lemma replannable_of_prepare {request : ExecuteRequest} {now : Timestamp} {prepared : Prepared}
    (h : s.prepare request now = .ok prepared) :
    s.Replannable prepared.plan.staged.address (prepared.pendingTransaction request now)
      request.queueLength := by
  obtain ⟨_, -, -, -, -, hplan, -⟩ := of_prepare_eq_ok h
  exact ⟨rfl, rfl, prepared.plan, hplan, rfl, rfl, rfl⟩

/-- Under the same rules and with the same committed pool, a transaction is planned again. -/
lemma Replannable.frame {address : Address} {slot : PendingTransaction} {queueLength : BitVec 32}
    (h : s.Replannable address slot queueLength) (hfiled : s.registry.Filed)
    (hrules : s'.rules = s.rules) (hpool : s'.registry.get? address = s.registry.get? address) :
    s'.Replannable address slot queueLength := by
  obtain ⟨plan, hplan, hholds⟩ := h.plan
  refine ⟨h.pool, h.staged, plan, ?_, hholds⟩
  obtain ⟨i, pool, post, hbasis⟩ := Rules.exists_basis hplan
  have haddress : i.pool = address := by
    rw [← address_of_basis hfiled hbasis, ← hholds.staged, h.staged]
  have hsame : ∀ j, slot.set.select slot.index = .ok j →
      s'.registry.get? j.pool = s.registry.get? j.pool := by
    intro j hj
    rw [hbasis.selected] at hj
    cases hj
    rw [haddress]
    exact hpool
  rw [hrules, Rules.plan_congr hsame, hplan]

/-- As long as the slot is filled, its transaction can be planned again. -/
lemma Replannable.move {address : Address} {slot : PendingTransaction} {queueLength : BitVec 32}
    (h : s.Replannable address slot queueLength) (hs : s.Consistent)
    (hmove : Moves s call answer s') (hslot : s'.pendingOn? address = some slot) :
    s'.Replannable address slot queueLength :=
  h.frame hs.filed hmove.rules_eq (hmove.registry_frame hs hslot)

lemma Consistent.move (hs : s.Consistent) (hmove : Moves s call answer s') : s'.Consistent where
  filed := by
    cases hmove with
    | registered new => exact hs.filed.register new
    | funded _ admitted | unrecorded _ admitted => exact hs.filed.deposit admitted
    | committed _ _ _ _ _ next _ => exact hs.filed.commit next
    | _ => exact hs.filed
  slots := by
    intro address slot hslot
    rcases hmove.pending_cases hslot with hold | ⟨request, _, now, prepared, -, hchecked, rfl, rfl⟩
    · obtain ⟨queueLength, hreplan⟩ := hs.slots address slot hold
      exact ⟨queueLength, hreplan.move hs hmove hslot⟩
    · exact ⟨request.queueLength, (replannable_of_prepare hchecked).move hs hmove hslot⟩

lemma consistent_create (rules : Rules) (accounts : AccountBook) (capacity : Nat) :
    (create rules accounts capacity).Consistent where
  filed := by
    intro address pool h
    simp [create] at h
  slots := by
    intro address slot h
    simp [create, pendingOn?] at h

theorem consistent_after (rules : Rules) (accounts : AccountBook) (capacity : Nat)
    (calls : List Call) : ((create rules accounts capacity).after calls).Consistent := by
  induction calls using List.reverseRecOn with
  | nil => exact consistent_create rules accounts capacity
  | append_singleton calls call ih =>
    rw [after_concat]
    exact ih.move (moves_perform _ call)

/-- Every step of a run meets a consistent state and gets the answer of its call there. -/
lemma consistent_of_mem_trace {rules : Rules} {accounts : AccountBook} {capacity : Nat}
    {calls : List Call} {step : Step} (h : step ∈ (create rules accounts capacity).trace calls) :
    step.before.Consistent ∧ step.answer = (step.before.perform step.call).1 := by
  obtain ⟨earlier, _, -, hbefore, hanswer⟩ := exists_split_of_mem_trace h
  refine ⟨?_, hanswer⟩
  rw [hbefore]
  exact consistent_after rules accounts capacity earlier

lemma rules_after (s : Settlement) (calls : List Call) : (s.after calls).rules = s.rules := by
  induction calls using List.reverseRecOn with
  | nil => rfl
  | append_singleton calls call ih =>
    rw [after_concat, (moves_perform _ call).rules_eq, ih]

/-- A call between `earlier` and `later` has filled the slot of `address`, and ever since the slot
has held that transaction and the pool has been the one that the call met. -/
structure Standing (start : Settlement) (earlier : List Call) (execution : Call)
    (later : List Call) (address : Address) (slot : PendingTransaction) (pool : Pool) : Prop where
  idle : (start.after earlier).pendingOn? address = none
  met : (start.after earlier).registry.get? address = some pool
  filled : ∀ n, (start.after (earlier ++ execution :: later.take n)).pendingOn? address = some slot
  kept : ∀ n, (start.after (earlier ++ execution :: later.take n)).registry.get? address = some pool

/-- What holds at every moment of a run and at the end of the run with one more call holds at every
moment of the longer run. -/
lemma forall_take_concat {P : List Call → Prop} {calls : List Call} {call : Call}
    (hearlier : ∀ n, P (calls.take n)) (hend : P (calls ++ [call])) :
    ∀ n, P ((calls ++ [call]).take n) := by
  intro n
  by_cases hn : n ≤ calls.length
  · rw [List.take_append_of_le_length hn]
    exact hearlier n
  · have hlength : (calls ++ [call]).length ≤ n := by
      rw [List.length_append, List.length_singleton]
      omega
    rw [List.take_of_length_le hlength]
    exact hend

lemma Standing.concat {start : Settlement} {earlier later : List Call} {execution call : Call}
    {address : Address} {slot : PendingTransaction} {pool : Pool}
    (h : Standing start earlier execution later address slot pool)
    (hslot : (start.after (earlier ++ execution :: (later ++ [call]))).pendingOn? address =
      some slot)
    (hpool : (start.after (earlier ++ execution :: (later ++ [call]))).registry.get? address =
      some pool) :
    Standing start earlier execution (later ++ [call]) address slot pool where
  idle := h.idle
  met := h.met
  filled := forall_take_concat
    (P := fun since => (start.after (earlier ++ execution :: since)).pendingOn? address = some slot)
    h.filled hslot
  kept := forall_take_concat
    (P := fun since =>
      (start.after (earlier ++ execution :: since)).registry.get? address = some pool)
    h.kept hpool

lemma Standing.of_prepare {start : Settlement} {calls : List Call} {request : ExecuteRequest}
    {confirmed : List CoinId} {now : Timestamp} {prepared : Prepared} {slot : PendingTransaction}
    (hconsistent : (start.after calls).Consistent)
    (hchecked : (start.after calls).prepare request now = .ok prepared)
    (hpool : (start.after (calls ++ [.execute request confirmed now])).registry =
      (start.after calls).registry)
    (hslot : (start.after (calls ++ [.execute request confirmed now])).pendingOn?
      prepared.plan.staged.address = some slot) :
    ∃ pool, Standing start calls (.execute request confirmed now) []
      prepared.plan.staged.address slot pool := by
  obtain ⟨i, pool, post, hbasis, hidle, -⟩ := exists_basis_of_prepare hchecked
  have haddress := address_of_basis hconsistent.filed hbasis
  refine ⟨pool, ?_, ?_, ?_, ?_⟩
  · rw [haddress]
    exact hidle
  · rw [haddress]
    exact hbasis.committed
  · intro n
    rw [List.take_nil]
    exact hslot
  · intro n
    rw [List.take_nil, hpool, haddress]
    exact hbasis.committed

lemma Moves.registry_eq_of_execute {request : ExecuteRequest} {confirmed : List CoinId}
    {now : Timestamp} (h : Moves s (.execute request confirmed now) answer s') :
    s'.registry = s.registry := by
  cases h <;> rfl

section Run

variable {rules : Rules} {accounts : AccountBook} {capacity : Nat} {calls : List Call}
  {address : Address} {slot : PendingTransaction}

/-- Behind every filled slot stands the transaction of one execution of the run. -/
theorem exists_standing
    (h : ((create rules accounts capacity).after calls).pendingOn? address = some slot) :
    ∃ earlier request confirmed now later pool prepared,
      calls = earlier ++ .execute request confirmed now :: later ∧
      Standing (create rules accounts capacity) earlier (.execute request confirmed now) later
        address slot pool ∧
      ((create rules accounts capacity).after earlier).prepare request now = .ok prepared ∧
      slot = prepared.pendingTransaction request now := by
  induction calls using List.reverseRecOn with
  | nil => simp [create, pendingOn?] at h
  | append_singleton calls call ih =>
    have hconsistent := consistent_after rules accounts capacity calls
    have hmove := moves_perform ((create rules accounts capacity).after calls) call
    rw [← after_concat] at hmove
    rcases hmove.pending_cases h with
      hold | ⟨request, confirmed, now, prepared, rfl, hchecked, rfl, rfl⟩
    · obtain ⟨earlier, request, confirmed, now, later, pool, prepared, rfl, hstands, hchecked, rfl⟩
        := ih hold
      have hframe := hmove.registry_frame hconsistent h
      have hpool := hstands.kept later.length
      rw [List.take_length] at hpool
      refine ⟨earlier, request, confirmed, now, later ++ [call], pool, prepared, ?_, ?_, hchecked,
        rfl⟩
      · rw [List.append_assoc, List.cons_append]
      · rw [List.append_assoc, List.cons_append] at h hframe
        exact hstands.concat h (hframe.trans hpool)
    · obtain ⟨pool, hstands⟩ :=
        Standing.of_prepare hconsistent hchecked hmove.registry_eq_of_execute h
      exact ⟨calls, request, confirmed, now, [], pool, prepared, rfl, hstands, hchecked, rfl⟩

/-- What is pending has been prepared in an earlier state of the run. -/
lemma exists_prepare_of_pendingOn?
    (h : ((create rules accounts capacity).after calls).pendingOn? address = some slot) :
    ∃ (s : Settlement) (request : ExecuteRequest) (now : Timestamp) (prepared : Prepared),
      s.rules = rules ∧ s.prepare request now = .ok prepared ∧
      slot = prepared.pendingTransaction request now := by
  obtain ⟨earlier, request, _, now, _, _, prepared, -, -, hchecked, hslot⟩ := exists_standing h
  exact ⟨_, request, now, prepared, rules_after _ earlier, hchecked, hslot⟩

/-- No update is lost or stale. Behind a filled slot is still the committed pool that one execution
of the run was checked against, and the rules would stage the same transaction again. -/
theorem pending_agrees
    (h : ((create rules accounts capacity).after calls).pendingOn? address = some slot) :
    ∃ earlier request confirmed now later pool plan,
      calls = earlier ++ .execute request confirmed now :: later ∧
      Standing (create rules accounts capacity) earlier (.execute request confirmed now) later
        address slot pool ∧
      slot.set = request.set ∧ slot.index = request.index ∧
      rules.plan ((create rules accounts capacity).after earlier).registry slot.set slot.index
        request.queueLength = .ok plan ∧
      rules.plan ((create rules accounts capacity).after calls).registry slot.set slot.index
        request.queueLength = .ok plan ∧
      slot.Holds plan ∧ slot.pool = address ∧ slot.staged.address = address ∧
      ((create rules accounts capacity).after calls).registry.get? address = some pool ∧
      slot.staged.Succeeds pool := by
  obtain ⟨earlier, request, confirmed, now, later, pool, prepared, hcalls, hstands, hchecked, rfl⟩
    := exists_standing h
  obtain ⟨_, -, -, -, -, hplan, -⟩ := of_prepare_eq_ok hchecked
  rw [rules_after] at hplan
  obtain ⟨i, found, post, hbasis⟩ := Rules.exists_basis hplan
  obtain ⟨_, hreplan⟩ := (consistent_after rules accounts capacity calls).slots address _ h
  have haddress : prepared.plan.staged.address = address := hreplan.staged
  have hfiled := (consistent_after rules accounts capacity earlier).filed
  obtain rfl : i.pool = address := (address_of_basis hfiled hbasis).symm.trans haddress
  obtain rfl : found = pool := Option.some.inj (hbasis.committed.symm.trans hstands.met)
  have hpool := hstands.kept later.length
  rw [List.take_length, ← hcalls] at hpool
  have hsame : ∀ j, request.set.select request.index = .ok j →
      ((create rules accounts capacity).after calls).registry.get? j.pool =
        ((create rules accounts capacity).after earlier).registry.get? j.pool := by
    intro j hj
    rw [hbasis.selected] at hj
    cases hj
    rw [hpool, hbasis.committed]
  have hagain := (Rules.plan_congr hsame).trans hplan
  exact ⟨earlier, request, confirmed, now, later, found, prepared.plan, hcalls, hstands, rfl, rfl,
    hplan, hagain, ⟨rfl, rfl, rfl⟩, hreplan.pool, haddress, hpool,
    Pool.succeeds_of_stage hbasis.staged⟩

theorem pending_agrees_sample :
    let s := (create Sample.rules (.create 0#64 0#128) 10).after Sample.staging
    ∃ slot pool plan queueLength, s.pendingOn? "pool" = some slot ∧
      s.registry.get? "pool" = some pool ∧
      Sample.rules.plan s.registry slot.set slot.index queueLength = .ok plan ∧
      slot.Holds plan ∧ slot.staged.Succeeds pool := by
  intro s
  have hfilled : (s.pendingOn? "pool").isSome = true := by decide +kernel
  obtain ⟨slot, hslot⟩ := Option.isSome_iff_exists.1 hfilled
  obtain ⟨_, request, _, _, _, pool, plan, -, -, -, -, -, hplan, hholds, -, -, hpool, hsucceeds⟩ :=
    pending_agrees hslot
  exact ⟨slot, pool, plan, request.queueLength, hslot, hpool, hplan, hholds, hsucceeds⟩

end Run

end Settlement

end RuneSettlement
