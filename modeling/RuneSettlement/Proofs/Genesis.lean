import RuneSettlement.Proofs.Atomicity
import RuneSettlement.Proofs.PoolMoves

/-!
# Deposits of one pool

A pool counts as funded while it owns an output. A deposit funds a pool that is not, and the only
way back is the commit of a transaction that spends all that the pool owns and creates nothing
(`Moves.funding`). Between two accepted deposits of a pool such a commit has emptied it, so a pool
is deposited to at most once more often than it is emptied (`Settlement.deposits_apart`).
-/

namespace RuneSettlement.Settlement

/-- Whether the committed pool of an address owns an output. -/
def isFunded (s : Settlement) (p : Address) : Bool := (s.registry.get? p).any Pool.isFunded

/-- Whether the step is an accepted deposit on a pool. -/
def Step.deposits (step : Step) (p : Address) : Bool := !(step.admittedOn p).isEmpty

/-- Whether the step has committed a transaction that leaves a pool without any output. -/
def Step.drains (step : Step) (p : Address) : Bool :=
  (step.committedOn? p).any fun slot => !slot.staged.isFunded

variable {s s' : Settlement} {call : Call} {answer : Outcome Receipt} {p : Address} {step : Step}

/-- What a step that leaves state `s'` has to do with the funding of a pool. -/
structure Funding (step : Step) (s' : Settlement) (p : Address) : Prop where
  deposit : step.deposits p = true → step.before.isFunded p = false ∧ s'.isFunded p = true
  drain : step.before.isFunded p = true → s'.isFunded p = false → step.drains p = true

lemma isFunded_eq {pool : Pool} (h : s.registry.get? p = some pool) :
    s.isFunded p = pool.isFunded := by
  rw [isFunded, h, Option.any_some]

/-- A step that deposits nothing on a pool and does not leave it unfunded. -/
lemma Funding.of_kept (hlegs : step.admittedOn p = [])
    (hkept : step.before.isFunded p = true → s'.isFunded p = true) : Funding step s' p where
  deposit := by
    intro hdeposits
    rw [Step.deposits, hlegs] at hdeposits
    cases hdeposits
  drain := by
    intro hbefore hafter
    rw [hkept hbefore] at hafter
    cases hafter

lemma Moves.funding (h : Moves s call answer s') (hs : s.Consistent) (p : Address) :
    Funding ⟨s, call, answer⟩ s' p := by
  have hmove := h.poolMove hs p
  generalize hlegs : Step.admittedOn ⟨s, call, answer⟩ p = legs at hmove
  generalize hslot : Step.committedOn? ⟨s, call, answer⟩ p = slot? at hmove
  cases hmove with
  | kept stored =>
    have hsame : s'.isFunded p = s.isFunded p := by rw [isFunded, stored, isFunded]
    exact .of_kept hlegs fun hbefore => hsame.trans hbefore
  | registered absent =>
    refine .of_kept hlegs fun hbefore => ?_
    rw [isFunded, absent] at hbefore
    cases hbefore
  | funded current unfunded token fund stored =>
    have hbefore := (isFunded_eq current).trans unfunded
    have hafter := (isFunded_eq stored).trans (Pool.isFunded_of_fund fund)
    refine ⟨fun _ => ⟨hbefore, hafter⟩, ?_⟩
    intro hfunded
    rw [hbefore] at hfunded
    cases hfunded
  | unrecorded current unfunded token fund stored =>
    exact .of_kept hlegs fun _ => (isFunded_eq stored).trans (Pool.isFunded_of_fund fund)
  | @committed _ _ slot pending stored =>
    constructor
    · intro hdeposits
      rw [Step.deposits, hlegs] at hdeposits
      cases hdeposits
    · intro _ hafter
      rw [isFunded_eq stored] at hafter
      rw [Step.drains, hslot, Option.any_some, hafter]
      rfl

lemma funding_perform (hs : s.Consistent) (call : Call) (p : Address) :
    Funding ⟨s, call, (s.perform call).1⟩ (s.perform call).2 p :=
  (moves_perform s call).funding hs p

/-- A deposit makes the pool funded, and what makes it unfunded is a drain. -/
lemma Funding.count_le (h : Funding step s' p) :
    (if step.deposits p then 1 else 0) + (step.before.isFunded p).toNat ≤
      (if step.drains p then 1 else 0) + (s'.isFunded p).toNat := by
  cases hdeposits : step.deposits p with
  | true =>
    obtain ⟨hbefore, hafter⟩ := h.deposit hdeposits
    rw [hbefore, hafter]
    exact Nat.le_add_left 1 _
  | false =>
    cases hbefore : step.before.isFunded p with
    | false => exact Nat.zero_le _
    | true =>
      cases hafter : s'.isFunded p with
      | true => exact Nat.le_add_left 1 _
      | false =>
        rw [h.drain hbefore hafter]
        exact Nat.le_refl 1

/-- Every deposit but the one that still stands has been undone by a drain. -/
lemma countP_deposits_le (rules : Rules) (accounts : AccountBook) (capacity : Nat)
    (calls : List Call) (p : Address) :
    let s := create rules accounts capacity
    (s.trace calls).countP (·.deposits p) ≤
      (s.trace calls).countP (·.drains p) + ((s.after calls).isFunded p).toNat := by
  intro s
  induction calls using List.reverseRecOn with
  | nil => exact Nat.zero_le _
  | append_singleton calls call ih =>
    have hs : (s.after calls).Consistent := consistent_after rules accounts capacity calls
    have hstep := (funding_perform hs call p).count_le
    rw [trace_concat, after_concat, List.countP_append, List.countP_append, List.countP_singleton,
      List.countP_singleton]
    dsimp only at hstep
    omega

/-- Every step of a run leaves the funding of each pool so. -/
lemma funding_of_mem {rules : Rules} {accounts : AccountBook} {capacity : Nat} {calls : List Call}
    (h : step ∈ (create rules accounts capacity).trace calls) (p : Address) :
    Funding step step.next p := by
  obtain ⟨hs, hanswer⟩ := consistent_of_mem_trace h
  have hfunding := funding_perform hs step.call p
  rw [← hanswer] at hfunding
  exact hfunding

/-- A pool that is funded and later is not has been drained in between. -/
lemma exists_drains_of_isFunded {calls : List Call} (hs : s.Consistent)
    (hbefore : s.isFunded p = true) (hafter : (s.after calls).isFunded p = false) :
    ∃ step ∈ s.trace calls, step.drains p = true := by
  induction calls generalizing s with
  | nil =>
    rw [after_nil, hbefore] at hafter
    cases hafter
  | cons call calls ih =>
    cases hnext : (s.perform call).2.isFunded p with
    | false => exact ⟨_, List.mem_cons_self, (funding_perform hs call p).drain hbefore hnext⟩
    | true =>
      have hconsistent := hs.move (moves_perform s call)
      obtain ⟨step, hstep, hdrains⟩ := ih hconsistent hnext hafter
      exact ⟨step, List.mem_cons_of_mem _ hstep, hdrains⟩

namespace Sample

/-- Pays out all that `legA` and `legB` hold for one unit of the native coin. -/
def emptying : Intention :=
  { draining with outputs := [⟨"trader", Coin.native 1001#64⟩, ⟨"trader", ⟨token, 100#128⟩⟩] }

/-- A pool is deposited to, emptied and deposited to once more. -/
def refunded : List Call :=
  [.registerPool "name" ⟨"untweaked", "tweaked", [], "pool"⟩ token 100#128 "",
    .deposit "pool" legA legB,
    .execute ⟨"00", (txid 2).text, ⟨"trader", [emptying]⟩, 0#32, 0#32⟩ [] 0#64,
    .finalize (txid 2).text "untweaked" 1#64,
    .deposit "pool" { legA with outpoint := ⟨txid 3, 0#32⟩ }
      { legB with outpoint := ⟨txid 3, 1#32⟩ }]

end Sample

/-- Deposits of a pool lie apart. In every run, between two accepted deposits of one pool a
transaction is committed that leaves the pool without any output. So a pool is deposited to at most
once more often than it is emptied, and at most once where no transaction empties it. -/
theorem deposits_apart (rules : Rules) (accounts : AccountBook) (capacity : Nat)
    (calls : List Call) (p : Address) :
    let steps := (create rules accounts capacity).trace calls
    (∀ earlier first between second later,
      steps = earlier ++ first :: (between ++ second :: later) →
      first.deposits p = true → second.deposits p = true →
      ∃ step ∈ between, step.drains p = true) ∧
    steps.countP (·.deposits p) ≤ steps.countP (·.drains p) + 1 ∧
    ((∀ step ∈ steps, step.drains p = false) → steps.countP (·.deposits p) ≤ 1) := by
  intro steps
  have hcount : steps.countP (·.deposits p) ≤ steps.countP (·.drains p) + 1 := by
    have hle := countP_deposits_le rules accounts capacity calls p
    have hone := Bool.toNat_le (((create rules accounts capacity).after calls).isFunded p)
    exact hle.trans (Nat.add_le_add_left hone _)
  refine ⟨?_, hcount, ?_⟩
  · intro earlier first between second later hsteps hfirst hsecond
    have hfirstMem : first ∈ steps := by simp [hsteps]
    have hsecondMem : second ∈ steps := by simp [hsteps]
    have hs := (consistent_of_mem_trace hfirstMem).1
    have hfirstStep := funding_of_mem hfirstMem p
    have hsecondStep := funding_of_mem hsecondMem p
    obtain ⟨_, rest, -, -, -, -, hrest⟩ := exists_split_of_trace hsteps
    obtain ⟨since, _, -, hsince, hbefore, -, -⟩ := exists_split_of_trace hrest
    have hfunded := (hfirstStep.deposit hfirst).2
    have hunfunded := (hsecondStep.deposit hsecond).1
    rw [hbefore] at hunfunded
    rw [← hsince]
    exact exists_drains_of_isFunded (hs.move (moves_perform _ first.call)) hfunded hunfunded
  · intro hnever
    have hzero : steps.countP (·.drains p) = 0 := by
      rw [List.countP_eq_zero]
      intro step hstep
      rw [hnever step hstep]
      exact Bool.false_ne_true
    omega

theorem deposits_apart_sample :
    let steps := (create Sample.rules (.create 0#64 0#128) 10).trace Sample.refunded
    ∃ registered first staged emptied second,
      steps = [registered, first, staged, emptied, second] ∧
      first.deposits "pool" = true ∧ second.deposits "pool" = true ∧
      ∃ step ∈ [staged, emptied], step.drains "pool" = true := by
  intro steps
  obtain ⟨registered, first, staged, emptied, second, hsteps, hfirst, hsecond⟩ :
      ∃ registered first staged emptied second,
        steps = [registered, first, staged, emptied, second] ∧
        first.deposits "pool" = true ∧ second.deposits "pool" = true :=
    ⟨_, _, _, _, _, rfl, by decide +kernel, by decide +kernel⟩
  obtain ⟨hapart, -⟩ := deposits_apart Sample.rules (.create 0#64 0#128) 10 Sample.refunded "pool"
  have hdrained := hapart [registered] first [staged, emptied] second [] hsteps hfirst hsecond
  exact ⟨registered, first, staged, emptied, second, hsteps, hfirst, hsecond, hdrained⟩

/-- A pool that was emptied is deposited to once more. -/
theorem deposited_twice :
    let s := create Sample.rules (.create 0#64 0#128) 10
    (s.trace Sample.refunded).countP (·.deposits "pool") = 2 ∧
      (s.trace Sample.refunded).all (·.answer.isOk) = true := by
  decide +kernel

end RuneSettlement.Settlement
