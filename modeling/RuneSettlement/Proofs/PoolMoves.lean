import RuneSettlement.Proofs.PendingAgreement

/-!
# One pool along a run

What a run has admitted and committed on one pool is read off its steps. `PoolMove` lists all that
one call can do to the committed pool of an address and to its flows, together with what the step
has admitted and committed there.
-/

namespace RuneSettlement

/-- The intention that a pending transaction was staged for. -/
def PendingTransaction.intention (slot : PendingTransaction) : Outcome Intention :=
  slot.set.select slot.index

namespace Settlement

/-- The legs that a step has admitted on a pool. -/
def Step.admittedOn (step : Step) (pool : Address) : List Utxo :=
  match step.call, step.answer with
  | .deposit address legA legB, .ok _ => if address = pool then [legA, legB] else []
  | _, _ => []

/-- The transaction that a step has committed on a pool: the pending one, if the step has finalized
that transaction of that pool. -/
def Step.committedOn? (step : Step) (pool : Address) : Option PendingTransaction :=
  match step.call, step.answer with
  | .finalize txid poolKey _, .ok _ =>
    if step.before.registry.addressForKey poolKey = .ok pool then
      (step.before.pendingOn? pool).filter fun slot => decide (Txid.parse txid = .ok slot.txid)
    else none
  | _, _ => none

def admittedOn (steps : List Step) (pool : Address) : List Utxo :=
  steps.flatMap fun step => step.admittedOn pool

def committedOn (steps : List Step) (pool : Address) : List PendingTransaction :=
  steps.filterMap fun step => step.committedOn? pool

lemma admittedOn_concat (s : Settlement) (calls : List Call) (call : Call) (pool : Address) :
    admittedOn (s.trace (calls ++ [call])) pool =
      admittedOn (s.trace calls) pool ++
        Step.admittedOn ⟨s.after calls, call, ((s.after calls).perform call).1⟩ pool := by
  rw [trace_concat, admittedOn, List.flatMap_append, List.flatMap_singleton]
  rfl

lemma committedOn_concat (s : Settlement) (calls : List Call) (call : Call) (pool : Address) :
    committedOn (s.trace (calls ++ [call])) pool =
      committedOn (s.trace calls) pool ++
        Option.toList
          (Step.committedOn? ⟨s.after calls, call, ((s.after calls).perform call).1⟩ pool) := by
  rw [trace_concat, committedOn, List.filterMap_append]
  cases h : Step.committedOn? ⟨s.after calls, call, ((s.after calls).perform call).1⟩ pool <;>
    simp [committedOn, h]

/-- All that a call can do to the committed pool of one address and to its flows, with the legs and
the transaction that the step has admitted and committed there. -/
inductive PoolMove (p : Address) (s s' : Settlement) :
    Call → Outcome Receipt → List Utxo → Option PendingTransaction → Prop
  | kept {call : Call} {answer : Outcome Receipt}
      (stored : s'.registry.get? p = s.registry.get? p)
      (flows : s'.flows.flowsOf p = s.flows.flowsOf p) : PoolMove p s s' call answer [] none
  | registered {name : String} {keys : PoolKeys} {token : CoinId} {depositAmount : Amount}
      {attributes : String} {answer : Outcome Receipt} (absent : s.registry.get? p = none)
      (stored : s'.registry.get? p = some (.create name keys token depositAmount attributes))
      (flows : s'.flows.flowsOf p = s.flows.flowsOf p) :
      PoolMove p s s' (.registerPool name keys token depositAmount attributes) answer [] none
  | funded {legA legB : Utxo} {pool next : Pool} (current : s.registry.get? p = some pool)
      (unfunded : pool.isFunded = false)
      (token : Registry.depositedRune legA legB = .ok pool.token)
      (fund : pool.fund [legA, legB] = .ok next) (stored : s'.registry.get? p = some next)
      (recorded : (s.flows.flowsOf p).add next.reserves .empty = .ok (s'.flows.flowsOf p)) :
      PoolMove p s s' (.deposit p legA legB) (.ok .done) [legA, legB] none
  /-- The pool keeps the deposit although its flow could not be recorded. -/
  | unrecorded {legA legB : Utxo} {pool next : Pool} {refusal : Refusal}
      (current : s.registry.get? p = some pool) (unfunded : pool.isFunded = false)
      (token : Registry.depositedRune legA legB = .ok pool.token)
      (fund : pool.fund [legA, legB] = .ok next) (stored : s'.registry.get? p = some next)
      (flows : s'.flows.flowsOf p = s.flows.flowsOf p)
      (beyond : (s.flows.flowsOf p).add next.reserves .empty = .error refusal) :
      PoolMove p s s' (.deposit p legA legB) (.error refusal) [] none
  | committed {call : Call} {answer : Outcome Receipt} {slot : PendingTransaction}
      (pending : s.pendingOn? p = some slot) (stored : s'.registry.get? p = some slot.staged)
      (recorded : (s.flows.flowsOf p).add slot.inflow slot.outflow = .ok (s'.flows.flowsOf p))
      (balanced : (s'.flows.flowsOf p).balance = .ok slot.staged.reserves) :
      PoolMove p s s' call answer [] (some slot)

variable {s s' : Settlement} {call : Call} {answer : Outcome Receipt}

lemma committedOn?_of_settled {txid poolKey : String} {now : Timestamp} {pool : Address} {id : Txid}
    (hnamed : Txid.parse txid = .ok id) (hkeyed : s.registry.addressForKey poolKey = .ok pool)
    (hsettled : s.isPending pool id = false) (p : Address) :
    Step.committedOn? ⟨s, .finalize txid poolKey now, answer⟩ p = none := by
  cases answer with
  | error refusal => rfl
  | ok receipt =>
    simp only [Step.committedOn?, hkeyed, Except.ok.injEq]
    by_cases hpool : pool = p
    · rw [if_pos hpool, Option.filter_eq_none_iff]
      intro slot hslot hid
      rw [hnamed] at hid
      rw [← hpool] at hslot
      have hpending : s.isPending pool id = true :=
        isPending_iff.2 ⟨slot, hslot, by simpa using Eq.symm (of_decide_eq_true hid)⟩
      rw [hsettled] at hpending
      cases hpending
    · rw [if_neg hpool]

/-- Every move of the state is a move of each pool. -/
theorem Moves.poolMove (h : Moves s call answer s') (hs : s.Consistent) (p : Address) :
    PoolMove p s s' call answer (Step.admittedOn ⟨s, call, answer⟩ p)
      (Step.committedOn? ⟨s, call, answer⟩ p) := by
  cases h with
  | refused =>
    cases call <;> exact .kept rfl rfl
  | @registered name keys token depositAmount attributes _ new =>
    obtain ⟨habsent, -, -⟩ := Registry.register_eq_ok_iff.1 new
    have hstored := Registry.get?_of_register new p
    by_cases hp : keys.address = p
    · subst hp
      exact .registered habsent (hstored.trans (if_pos rfl)) rfl
    · exact .kept (hstored.trans (if_neg hp)) rfl
  | @funded address legA legB _ funded _ idle admitted committed recorded =>
    obtain ⟨pool, next, hcurrent, hunfunded, htoken, -, hfund, rfl⟩ :=
      Registry.deposit_eq_ok_iff.1 admitted
    obtain ⟨flows, hadd, rfl⟩ := FlowBook.record_eq_ok_iff.1 recorded
    have hstored := s.registry.get?_insert address p next
    have hflows := s.flows.flowsOf_insert address p flows
    by_cases hp : address = p
    · subst hp
      rw [if_pos rfl] at hstored hflows
      obtain rfl : next = funded := Option.some.inj (hstored.symm.trans committed)
      have hlegs : Step.admittedOn ⟨s, .deposit address legA legB, .ok .done⟩ address =
          [legA, legB] := if_pos rfl
      rw [hlegs]
      exact .funded hcurrent hunfunded htoken hfund hstored (hadd.trans (congrArg _ hflows.symm))
    · rw [if_neg hp] at hstored hflows
      have hlegs : Step.admittedOn ⟨s, .deposit address legA legB, .ok .done⟩ p = [] := if_neg hp
      rw [hlegs]
      exact .kept hstored hflows
  | @unrecorded address legA legB _ funded refusal idle admitted committed beyond =>
    obtain ⟨pool, next, hcurrent, hunfunded, htoken, -, hfund, rfl⟩ :=
      Registry.deposit_eq_ok_iff.1 admitted
    have hstored := s.registry.get?_insert address p next
    by_cases hp : address = p
    · subst hp
      rw [if_pos rfl] at hstored
      obtain rfl : next = funded := Option.some.inj (hstored.symm.trans committed)
      have hbeyond := FlowBook.record_eq_error_iff.1 beyond
      exact .unrecorded hcurrent hunfunded htoken hfund hstored rfl hbeyond
    · exact .kept (hstored.trans (if_neg hp)) rfl
  | @committed txid poolKey now address slot _ _ _ named keyed pending balanced previewed next
      recorded =>
    obtain ⟨_, -, -, -, rfl⟩ := Registry.commit_eq_ok_iff.1 next
    obtain ⟨flows, hadd, rfl⟩ := FlowBook.record_eq_ok_iff.1 recorded
    obtain ⟨_, hreplan⟩ := hs.slots _ _ pending
    obtain rfl : slot.staged.address = address := hreplan.staged
    have hstored := s.registry.get?_insert slot.staged.address p slot.staged
    have hflows := s.flows.flowsOf_insert slot.staged.address p flows
    by_cases hp : slot.staged.address = p
    · subst hp
      rw [if_pos rfl] at hstored hflows
      obtain ⟨_, hsummed, hbalance⟩ := FlowBook.check_eq_ok_iff.1 balanced
      obtain rfl := Except.ok.inj (hadd.symm.trans hsummed)
      have hslot : Step.committedOn? ⟨s, .finalize txid poolKey now, .ok .done⟩
          slot.staged.address = some slot := by
        simp [Step.committedOn?, keyed, pending, named]
      rw [hslot]
      exact .committed pending hstored (hadd.trans (congrArg _ hflows.symm))
        ((congrArg Flows.balance hflows).trans hbalance)
    · rw [if_neg hp] at hstored hflows
      have hslot : Step.committedOn? ⟨s, .finalize txid poolKey now, .ok .done⟩ p = none := by
        simp [Step.committedOn?, keyed, hp]
      rw [hslot]
      exact .kept hstored hflows
  | recommitted named keyed settled logged =>
    rw [committedOn?_of_settled named keyed settled]
    exact .kept rfl rfl
  | _ => exact .kept rfl rfl

end Settlement

end RuneSettlement
