import Mathlib.Data.List.Induction
import Mathlib.Tactic.Lemma
import RuneSettlement.Settlement.Calls

/-!
# Runs of settlement calls

A run is any list of calls from a state, each of which may succeed or be refused. `Moves` lists all
that one call can do to the state, with the checks that it passed; whatever every move preserves
holds after every run.
-/

namespace RuneSettlement.Settlement

/-- A call with its arguments. The pools that are registered own nothing yet. -/
inductive Call
  | registerPool (name : String) (keys : PoolKeys) (token : CoinId) (depositAmount : Amount)
      (attributes : String)
  | deposit (pool : Address) (legA legB : Utxo)
  | execute (request : ExecuteRequest) (confirmed : List CoinId) (now : Timestamp)
  | finalize (txid poolKey : String) (now : Timestamp)
  | rollback (txid poolKey : String)
  | claim (account : Address) (now : Timestamp)
  | accrue (account : Address) (amount : Amount)

/-- What an accepted call gives back. -/
inductive Receipt
  | done
  | staged (execution : StagedExecution)
  | amount (amount : Amount)
  deriving DecidableEq

def Call.act : Call → SettlementM Receipt
  | .registerPool name keys token depositAmount attributes => do
    Settlement.registerPool (.create name keys token depositAmount attributes)
    return .done
  | .deposit pool legA legB => do
    Settlement.deposit pool legA legB
    return .done
  | .execute request confirmed now => return .staged (← Settlement.execute request confirmed now)
  | .finalize txid poolKey now => do
    Settlement.finalize txid poolKey now
    return .done
  | .rollback txid poolKey => do
    Settlement.rollback txid poolKey
    return .done
  | .claim account now => return .amount (← Settlement.claim account now)
  | .accrue account amount => return .amount (← Settlement.accrue account amount)

def perform (s : Settlement) (call : Call) : Outcome Receipt × Settlement := call.act.run.run s

/-- The state after a run. -/
def after (s : Settlement) (calls : List Call) : Settlement :=
  calls.foldl (fun s call => (s.perform call).2) s

/-- One call of a run: the state it met and the answer it got. -/
structure Step where
  before : Settlement
  call : Call
  answer : Outcome Receipt

/-- The state that a step leaves. -/
def Step.next (step : Step) : Settlement := (step.before.perform step.call).2

def trace (s : Settlement) : List Call → List Step
  | [] => []
  | call :: calls => ⟨s, call, (s.perform call).1⟩ :: (s.perform call).2.trace calls

@[simp] lemma after_nil (s : Settlement) : s.after [] = s := rfl

lemma after_append (s : Settlement) (calls later : List Call) :
    s.after (calls ++ later) = (s.after calls).after later := by
  rw [after, List.foldl_append]
  rfl

lemma after_concat (s : Settlement) (calls : List Call) (call : Call) :
    s.after (calls ++ [call]) = ((s.after calls).perform call).2 :=
  s.after_append calls [call]

@[simp] lemma trace_nil (s : Settlement) : s.trace [] = [] := rfl

lemma trace_append (s : Settlement) (calls later : List Call) :
    s.trace (calls ++ later) = s.trace calls ++ (s.after calls).trace later := by
  induction calls generalizing s with
  | nil => rfl
  | cons first calls ih =>
    rw [List.cons_append, trace, ih, trace]
    rfl

lemma trace_concat (s : Settlement) (calls : List Call) (call : Call) :
    s.trace (calls ++ [call]) =
      s.trace calls ++ [⟨s.after calls, call, ((s.after calls).perform call).1⟩] :=
  s.trace_append calls [call]

/-- The steps of a run fall into two parts only where its calls do. -/
lemma exists_append_of_trace {s : Settlement} {calls : List Call} {earlier later : List Step}
    (h : s.trace calls = earlier ++ later) :
    ∃ past rest, calls = past ++ rest ∧ s.trace past = earlier ∧
      (s.after past).trace rest = later := by
  induction earlier generalizing s calls with
  | nil => exact ⟨[], calls, rfl, rfl, h⟩
  | cons first earlier ih =>
    cases calls with
    | nil => cases h
    | cons call calls =>
      rw [trace, List.cons_append, List.cons.injEq] at h
      obtain ⟨hfirst, hothers⟩ := h
      obtain ⟨past, rest, rfl, hpast, hrest⟩ := ih hothers
      refine ⟨call :: past, rest, rfl, ?_, hrest⟩
      rw [trace, hfirst, hpast]

/-- A step of a run stands between the steps before it, which end in the state that it meets, and
those after it, which begin in the state that it leaves. -/
lemma exists_split_of_trace {s : Settlement} {calls : List Call} {earlier later : List Step}
    {step : Step} (h : s.trace calls = earlier ++ step :: later) :
    ∃ past rest, calls = past ++ step.call :: rest ∧ s.trace past = earlier ∧
      step.before = s.after past ∧ step.answer = (step.before.perform step.call).1 ∧
      step.next.trace rest = later := by
  obtain ⟨past, rest, rfl, hpast, hrest⟩ := exists_append_of_trace h
  cases rest with
  | nil => cases hrest
  | cons call rest =>
    rw [trace, List.cons.injEq] at hrest
    obtain ⟨rfl, hlater⟩ := hrest
    exact ⟨past, rest, rfl, hpast, rfl, rfl, hlater⟩

/-- A step of a run meets the state that the calls before it have left. -/
lemma exists_split_of_mem_trace {s : Settlement} {calls : List Call} {step : Step}
    (h : step ∈ s.trace calls) :
    ∃ earlier later, calls = earlier ++ step.call :: later ∧ step.before = s.after earlier ∧
      step.answer = (step.before.perform step.call).1 := by
  obtain ⟨steps, others, hsplit⟩ := List.append_of_mem h
  obtain ⟨earlier, later, hcalls, -, hbefore, hanswer, -⟩ := exists_split_of_trace hsplit
  exact ⟨earlier, later, hcalls, hbefore, hanswer⟩

/-- All that a call can do to the state, with the checks it has passed. -/
inductive Moves (s : Settlement) : Call → Outcome Receipt → Settlement → Prop
  | refused {call : Call} {refusal : Refusal} : Moves s call (.error refusal) s
  | registered {name : String} {keys : PoolKeys} {token : CoinId} {depositAmount : Amount}
      {attributes : String} {registry : Registry}
      (new : s.registry.register (.create name keys token depositAmount attributes) =
        .ok registry) :
      Moves s (.registerPool name keys token depositAmount attributes) (.ok .done)
        { s with registry }
  | funded {pool : Address} {legA legB : Utxo} {registry : Registry} {funded : Pool}
      {flows : FlowBook} (idle : s.pendingOn? pool = none)
      (admitted : s.registry.deposit pool legA legB = .ok registry)
      (committed : registry.get? pool = some funded)
      (recorded : s.flows.record pool funded.reserves .empty = .ok flows) :
      Moves s (.deposit pool legA legB) (.ok .done) { s with registry, flows }
  /-- The pool keeps the deposit although its flow could not be recorded. -/
  | unrecorded {pool : Address} {legA legB : Utxo} {registry : Registry} {funded : Pool}
      {refusal : Refusal} (idle : s.pendingOn? pool = none)
      (admitted : s.registry.deposit pool legA legB = .ok registry)
      (committed : registry.get? pool = some funded)
      (beyond : s.flows.record pool funded.reserves .empty = .error refusal) :
      Moves s (.deposit pool legA legB) (.error refusal) { s with registry }
  | staged {request : ExecuteRequest} {confirmed : List CoinId} {now : Timestamp}
      {prepared : Prepared} (checked : s.prepare request now = .ok prepared)
      (known : prepared.plan.checkConfirmed confirmed = .ok ()) :
      Moves s (.execute request confirmed now) (.ok (.staged prepared.stagedExecution))
        { s with
          pending := s.pending.insert prepared.plan.staged.address
            (prepared.pendingTransaction request now) }
  | committed {txid poolKey : String} {now : Timestamp} {pool : Address}
      {slot : PendingTransaction} {account : Option Account} {registry : Registry}
      {flows : FlowBook} (named : Txid.parse txid = .ok slot.txid)
      (keyed : s.registry.addressForKey poolKey = .ok pool)
      (pending : s.pendingOn? pool = some slot)
      (balanced : s.flows.check pool slot.inflow slot.outflow slot.staged.reserves = .ok ())
      (previewed : s.accounts.preview slot.effect now = .ok account)
      (next : s.registry.commit slot.staged = .ok registry)
      (recorded : s.flows.record pool slot.inflow slot.outflow = .ok flows) :
      Moves s (.finalize txid poolKey now) (.ok .done)
        { s with
          registry
          flows
          accounts := account.elim s.accounts s.accounts.store
          pending := s.pending.erase pool
          resolutions := s.resolutions.record (pool, slot.txid) .finalized }
  | recommitted {txid poolKey : String} {now : Timestamp} {pool : Address} {id : Txid}
      (named : Txid.parse txid = .ok id) (keyed : s.registry.addressForKey poolKey = .ok pool)
      (settled : s.isPending pool id = false)
      (logged : s.resolutions.get? pool id = some .finalized) :
      Moves s (.finalize txid poolKey now) (.ok .done) s
  | dropped {txid poolKey : String} {pool : Address} {slot : PendingTransaction}
      (named : Txid.parse txid = .ok slot.txid)
      (keyed : s.registry.addressForKey poolKey = .ok pool)
      (pending : s.pendingOn? pool = some slot) :
      Moves s (.rollback txid poolKey) (.ok .done)
        { s with
          pending := s.pending.erase pool
          resolutions := s.resolutions.record (pool, slot.txid) .rolledBack }
  | redropped {txid poolKey : String} {pool : Address} {id : Txid}
      (named : Txid.parse txid = .ok id) (keyed : s.registry.addressForKey poolKey = .ok pool)
      (settled : s.isPending pool id = false)
      (uncommitted : s.resolutions.get? pool id ≠ some .finalized) :
      Moves s (.rollback txid poolKey) (.ok .done) s
  | claimed {account : Address} {now : Timestamp} {amount : Amount} {accounts : AccountBook}
      (due : s.accounts.claim account now = .ok (amount, accounts)) :
      Moves s (.claim account now) (.ok (.amount amount)) { s with accounts }
  | accrued {account : Address} {amount balance : Amount} {accounts : AccountBook}
      (within : s.accounts.accrue account amount = .ok (balance, accounts)) :
      Moves s (.accrue account amount) (.ok (.amount balance)) { s with accounts }

section Running

variable {α β : Type} (s : Settlement)

lemma run_bind (x : SettlementM α) (f : α → SettlementM β) :
    (x >>= f).run.run s =
      match x.run.run s with
      | (.ok a, next) => (f a).run.run next
      | (.error refusal, next) => (.error refusal, next) := by
  change (ExceptT.bindCont f (x.run.run s).1).run (x.run.run s).2 = _
  cases h : x.run.run s with
  | mk answer next => cases answer <;> rfl

lemma run_ofOutcome (x : Outcome α) : (ofOutcome x).run.run s = (x, s) := rfl

lemma run_get : (get : SettlementM Settlement).run.run s = (.ok s, s) := rfl

lemma run_set (next : Settlement) : (set next : SettlementM PUnit).run.run s = (.ok (), next) := rfl

lemma run_pure (a : α) : (pure a : SettlementM α).run.run s = (.ok a, s) := rfl

lemma run_throw (refusal : Refusal) :
    (throw refusal : SettlementM α).run.run s = (.error refusal, s) := rfl

lemma run_ite (c : Prop) [Decidable c] (x y : SettlementM α) :
    (if c then x else y).run.run s = if c then x.run.run s else y.run.run s := by
  split <;> rfl

end Running

lemma moves_registerPool (s : Settlement) (name : String) (keys : PoolKeys) (token : CoinId)
    (depositAmount : Amount) (attributes : String) :
    let call := Call.registerPool name keys token depositAmount attributes
    Moves s call (s.perform call).1 (s.perform call).2 := by
  simp only [perform, Call.act, Settlement.registerPool, run_bind, run_get, run_ofOutcome, run_set,
    run_pure]
  cases hnew : s.registry.register (.create name keys token depositAmount attributes) with
  | error refusal => exact .refused
  | ok registry => exact .registered hnew

/-- Once the registry has admitted a deposit the pool is funded, and only its flow is left to be
recorded. -/
lemma perform_deposit_of_admitted {s : Settlement} {pool : Address} {legA legB : Utxo}
    {registry : Registry} {funded : Pool} (hidle : s.pendingOn? pool = none)
    (hadmitted : s.registry.deposit pool legA legB = .ok registry)
    (hfunded : registry.get? pool = some funded) :
    s.perform (.deposit pool legA legB) =
      match s.flows.record pool funded.reserves .empty with
      | .error refusal => (.error refusal, { s with registry })
      | .ok flows => (.ok .done, { s with registry, flows }) := by
  have hchecked : s.checkIdle pool = .ok () := checkIdle_eq_ok_iff.2 hidle
  have hrequire : registry.require pool = .ok funded := Outcome.ofOption_eq_ok_iff.2 hfunded
  simp only [perform, Call.act, Settlement.deposit, run_bind, run_get, run_ofOutcome, run_set,
    run_pure, hchecked, hadmitted, hrequire]
  cases s.flows.record pool funded.reserves .empty <;> rfl

lemma moves_deposit (s : Settlement) (pool : Address) (legA legB : Utxo) :
    let call := Call.deposit pool legA legB
    Moves s call (s.perform call).1 (s.perform call).2 := by
  simp only [perform, Call.act, Settlement.deposit, run_bind, run_get, run_ofOutcome, run_set,
    run_pure]
  cases hidle : s.checkIdle pool with
  | error refusal => exact .refused
  | ok _ =>
    have hpending := checkIdle_eq_ok_iff.1 hidle
    cases hadmitted : s.registry.deposit pool legA legB with
    | error refusal => exact .refused
    | ok registry =>
      obtain ⟨funded, hfunded⟩ := Registry.exists_get?_of_deposit hadmitted
      have hrequire : registry.require pool = .ok funded := Outcome.ofOption_eq_ok_iff.2 hfunded
      simp only [hrequire]
      cases hrecorded : s.flows.record pool funded.reserves .empty with
      | error refusal => exact .unrecorded hpending hadmitted hfunded hrecorded
      | ok flows => exact .funded hpending hadmitted hfunded hrecorded

lemma moves_execute (s : Settlement) (request : ExecuteRequest) (confirmed : List CoinId)
    (now : Timestamp) :
    let call := Call.execute request confirmed now
    Moves s call (s.perform call).1 (s.perform call).2 := by
  simp only [perform, Call.act, Settlement.execute, run_bind, run_get, run_ofOutcome, run_set,
    run_pure]
  cases hchecked : s.prepare request now with
  | error refusal => exact .refused
  | ok prepared =>
    dsimp only
    cases hknown : prepared.plan.checkConfirmed confirmed with
    | error refusal => exact .refused
    | ok _ => exact .staged hchecked hknown

/-- Once a commit has replaced the committed pool it goes through. -/
lemma commitPending_of_replaced {s : Settlement} {pool : Address} {slot : PendingTransaction}
    {now : Timestamp} {account : Option Account} {registry : Registry}
    (hslot : s.pendingOn? pool = some slot)
    (hbalanced : s.flows.check pool slot.inflow slot.outflow slot.staged.reserves = .ok ())
    (hpreviewed : s.accounts.preview slot.effect now = .ok account)
    (hnext : s.registry.commit slot.staged = .ok registry) :
    ∃ flows, s.flows.record pool slot.inflow slot.outflow = .ok flows ∧
      (commitPending pool now).run.run s = (.ok (), { s with
        registry
        flows
        accounts := account.elim s.accounts s.accounts.store
        pending := s.pending.erase pool
        resolutions := s.resolutions.record (pool, slot.txid) .finalized }) := by
  obtain ⟨flows, hrecorded⟩ := FlowBook.exists_record_of_check hbalanced
  refine ⟨flows, hrecorded, ?_⟩
  simp only [commitPending, run_bind, run_get, run_ofOutcome, run_set, hslot, Outcome.ofOption,
    hbalanced, hpreviewed, hnext, hrecorded]

lemma run_commitPending {s : Settlement} {pool : Address} {slot : PendingTransaction}
    (now : Timestamp) (hslot : s.pendingOn? pool = some slot) :
    (∃ refusal, (commitPending pool now).run.run s = (.error refusal, s)) ∨
      ∃ account registry flows,
        s.flows.check pool slot.inflow slot.outflow slot.staged.reserves = .ok () ∧
        s.accounts.preview slot.effect now = .ok account ∧
        s.registry.commit slot.staged = .ok registry ∧
        s.flows.record pool slot.inflow slot.outflow = .ok flows ∧
        (commitPending pool now).run.run s = (.ok (), { s with
          registry
          flows
          accounts := account.elim s.accounts s.accounts.store
          pending := s.pending.erase pool
          resolutions := s.resolutions.record (pool, slot.txid) .finalized }) := by
  simp only [commitPending, run_bind, run_get, run_ofOutcome, run_set, hslot, Outcome.ofOption]
  cases hbalanced : s.flows.check pool slot.inflow slot.outflow slot.staged.reserves with
  | error refusal => exact .inl ⟨refusal, rfl⟩
  | ok _ =>
    cases hpreviewed : s.accounts.preview slot.effect now with
    | error refusal => exact .inl ⟨refusal, rfl⟩
    | ok account =>
      cases hnext : s.registry.commit slot.staged with
      | error refusal => exact .inl ⟨refusal, rfl⟩
      | ok registry =>
        obtain ⟨flows, hrecorded⟩ := FlowBook.exists_record_of_check hbalanced
        rw [hrecorded]
        exact .inr ⟨account, registry, flows, rfl, rfl, rfl, rfl, rfl⟩

lemma moves_finalize (s : Settlement) (txid poolKey : String) (now : Timestamp) :
    let call := Call.finalize txid poolKey now
    Moves s call (s.perform call).1 (s.perform call).2 := by
  simp only [perform, Call.act, Settlement.finalize, run_bind, run_get, run_ofOutcome, run_ite,
    run_pure, run_throw]
  cases hnamed : Txid.parse txid with
  | error refusal => exact .refused
  | ok id =>
    dsimp only
    cases hkeyed : s.registry.addressForKey poolKey with
    | error refusal => exact .refused
    | ok pool =>
      dsimp only
      by_cases hpending : s.isPending pool id = true
      · rw [if_pos hpending]
        obtain ⟨slot, hslot, rfl⟩ := isPending_iff.1 hpending
        rcases run_commitPending now hslot with ⟨refusal, hrun⟩ |
          ⟨account, registry, flows, hbalanced, hpreviewed, hnext, hrecorded, hrun⟩
        · rw [hrun]
          exact .refused
        · rw [hrun]
          exact .committed hnamed hkeyed hslot hbalanced hpreviewed hnext hrecorded
      · rw [if_neg hpending]
        by_cases hlogged : s.resolutions.get? pool id = some .finalized
        · rw [if_pos hlogged]
          exact .recommitted hnamed hkeyed (Bool.eq_false_iff.2 hpending) hlogged
        · rw [if_neg hlogged]
          exact .refused

lemma moves_rollback (s : Settlement) (txid poolKey : String) :
    let call := Call.rollback txid poolKey
    Moves s call (s.perform call).1 (s.perform call).2 := by
  simp only [perform, Call.act, Settlement.rollback, run_bind, run_get, run_set, run_ofOutcome,
    run_ite, run_pure, run_throw]
  cases hnamed : Txid.parse txid with
  | error refusal => exact .refused
  | ok id =>
    dsimp only
    cases hkeyed : s.registry.addressForKey poolKey with
    | error refusal => exact .refused
    | ok pool =>
      dsimp only
      by_cases hpending : s.isPending pool id = true
      · rw [if_pos hpending]
        obtain ⟨slot, hslot, rfl⟩ := isPending_iff.1 hpending
        exact .dropped hnamed hkeyed hslot
      · rw [if_neg hpending]
        by_cases hlogged : s.resolutions.get? pool id = some .finalized
        · rw [if_pos hlogged]
          exact .refused
        · rw [if_neg hlogged]
          exact .redropped hnamed hkeyed (Bool.eq_false_iff.2 hpending) hlogged

lemma moves_claim (s : Settlement) (account : Address) (now : Timestamp) :
    let call := Call.claim account now
    Moves s call (s.perform call).1 (s.perform call).2 := by
  simp only [perform, Call.act, Settlement.claim, run_bind, run_get, run_ofOutcome, run_set,
    run_pure]
  cases hdue : s.accounts.claim account now with
  | error refusal => exact .refused
  | ok due => exact .claimed hdue

lemma moves_accrue (s : Settlement) (account : Address) (amount : Amount) :
    let call := Call.accrue account amount
    Moves s call (s.perform call).1 (s.perform call).2 := by
  simp only [perform, Call.act, Settlement.accrue, run_bind, run_get, run_ofOutcome, run_set,
    run_pure]
  cases hwithin : s.accounts.accrue account amount with
  | error refusal => exact .refused
  | ok accrued => exact .accrued hwithin

/-- Every call makes one of the moves. -/
theorem moves_perform (s : Settlement) (call : Call) :
    Moves s call (s.perform call).1 (s.perform call).2 := by
  cases call with
  | registerPool name keys token depositAmount attributes =>
    exact s.moves_registerPool name keys token depositAmount attributes
  | deposit pool legA legB => exact s.moves_deposit pool legA legB
  | execute request confirmed now => exact s.moves_execute request confirmed now
  | finalize txid poolKey now => exact s.moves_finalize txid poolKey now
  | rollback txid poolKey => exact s.moves_rollback txid poolKey
  | claim account now => exact s.moves_claim account now
  | accrue account amount => exact s.moves_accrue account amount

/-! ### A run on one pool -/

namespace Sample

def txid (n : UInt8) : Txid := ⟨.take 32 [n]⟩

def token : CoinId := .rune 840000#64 1#32

def rules : Rules := ⟨"exchange", token, 10#64, ⟨0#64, 0#64, 0#32⟩⟩

def legA : Utxo := ⟨⟨txid 1, 0#32⟩, 600#64, some ⟨token, 100#128⟩⟩

def legB : Utxo := ⟨⟨txid 1, 1#32⟩, 400#64, none⟩

/-- Fifty of the native coin for five of the token. -/
def swap : Intention where
  exchangeId := "exchange"
  action := "swap"
  parameters := ""
  pool := "pool"
  nonce := 0#64
  spends := [legA.outpoint.text]
  receives := [(OutPoint.mk (txid 2) 0#32).text]
  inputs := [⟨"trader", Coin.native 50#64⟩]
  outputs := [⟨"trader", ⟨token, 5#128⟩⟩]

/-- A pool is registered and funded, and a swap on it is staged. -/
def staging : List Call :=
  [.registerPool "name" ⟨"untweaked", "tweaked", [], "pool"⟩ token 100#128 "",
    .deposit "pool" legA legB,
    .execute ⟨"00", (txid 2).text, ⟨"trader", [swap]⟩, 0#32, 0#32⟩ [] 0#64]

def committing : List Call := staging ++ [.finalize (txid 2).text "untweaked" 1#64]

end Sample

end RuneSettlement.Settlement
