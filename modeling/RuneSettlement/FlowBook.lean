import RuneSettlement.Pool

/-!
# The book of flows

For every pool the sum of all that ever flowed in and the sum of all that ever flowed out. The
reserves of a pool must be the first less the second, and `check` refuses a transaction after which
they would not be.
-/

namespace RuneSettlement

structure Flows where
  inflow : Reserves
  outflow : Reserves
  deriving DecidableEq

namespace Flows

def empty : Flows := ⟨.empty, .empty⟩

def add (f : Flows) (inflow outflow : Reserves) : Outcome Flows := do
  let inflow ← f.inflow.merge inflow
  let outflow ← f.outflow.merge outflow
  return ⟨inflow, outflow⟩

/-- What flowed in less what flowed out. -/
def balance (f : Flows) : Outcome Reserves := f.inflow.debitAll f.outflow.coins

end Flows

structure FlowBook where
  flows : SortedMap Address Flows
  deriving DecidableEq

namespace FlowBook

def empty : FlowBook := ⟨.empty⟩

def flowsOf (b : FlowBook) (pool : Address) : Flows := (b.flows.get? pool).getD .empty

/-- The reserves that the recorded flows of a pool account for. -/
def expectedReserves (b : FlowBook) (pool : Address) : Outcome Reserves := (b.flowsOf pool).balance

def violation (pool : Address) (reason : String) : Refusal :=
  .invalidState ("conservation violated for pool " ++ pool ++ ": " ++ reason)

/-- Refuses flows after which the pool should hold anything else than `actual`. -/
def check (b : FlowBook) (pool : Address) (inflow outflow actual : Reserves) : Outcome Unit :=
  match ((b.flowsOf pool).add inflow outflow).bind Flows.balance with
  | .error refusal => .error (violation pool refusal.message)
  | .ok expected =>
    if expected = actual then .ok ()
    else .error (violation pool "reserves diverge from recorded flows")

def record (b : FlowBook) (pool : Address) (inflow outflow : Reserves) : Outcome FlowBook := do
  let flows ← (b.flowsOf pool).add inflow outflow
  return ⟨b.flows.insert pool flows⟩

@[simp] theorem flowsOf_empty (pool : Address) : empty.flowsOf pool = .empty := rfl

theorem record_eq_ok_iff {b b' : FlowBook} {pool : Address} {inflow outflow : Reserves} :
    b.record pool inflow outflow = .ok b' ↔
      ∃ flows, (b.flowsOf pool).add inflow outflow = .ok flows ∧
        b' = ⟨b.flows.insert pool flows⟩ := by
  simp only [record, Outcome.bind_eq_ok_iff, Outcome.pure_eq_ok_iff]
  exact exists_congr fun _ => and_congr_right fun _ => eq_comm

theorem record_eq_error_iff {b : FlowBook} {pool : Address} {inflow outflow : Reserves}
    {refusal : Refusal} :
    b.record pool inflow outflow = .error refusal ↔
      (b.flowsOf pool).add inflow outflow = .error refusal := by
  unfold record
  cases (b.flowsOf pool).add inflow outflow <;> simp [bind, Except.bind, pure, Except.pure]

theorem check_eq_ok_iff {b : FlowBook} {pool : Address} {inflow outflow actual : Reserves} :
    b.check pool inflow outflow actual = .ok () ↔
      ∃ flows, (b.flowsOf pool).add inflow outflow = .ok flows ∧ flows.balance = .ok actual := by
  unfold check
  cases (b.flowsOf pool).add inflow outflow with
  | error refusal => simp [Except.bind]
  | ok flows =>
    cases hbalance : flows.balance with
    | error refusal => simp [Except.bind, hbalance]
    | ok expected =>
      by_cases hexpected : expected = actual <;> simp [Except.bind, hbalance, hexpected]

/-- Flows that were checked can be recorded: recording them sums up the same. -/
theorem exists_record_of_check {b : FlowBook} {pool : Address} {inflow outflow actual : Reserves}
    (h : b.check pool inflow outflow actual = .ok ()) :
    ∃ b', b.record pool inflow outflow = .ok b' := by
  obtain ⟨flows, hadd, -⟩ := check_eq_ok_iff.1 h
  exact ⟨_, record_eq_ok_iff.2 ⟨flows, hadd, rfl⟩⟩

theorem flowsOf_insert (b : FlowBook) (pool other : Address) (flows : Flows) :
    flowsOf ⟨b.flows.insert pool flows⟩ other =
      if pool = other then flows else b.flowsOf other := by
  by_cases h : pool = other <;> simp [flowsOf, h, SortedMap.get?_insert]

end FlowBook

end RuneSettlement
