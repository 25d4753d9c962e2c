import Mathlib.Data.List.Pairwise
import RuneSettlement.Proofs.Atomicity
import RuneSettlement.Proofs.PoolMoves
import RuneSettlement.Proofs.Turnover

/-!
# Who owns an output

A pool gets outpoints from the deposits that it admits and from the transactions that are committed
on it, and loses those that these transactions spend (`turnover_perform`). Nothing remembers an
outpoint that was spent, and no pool looks at what another one owns. So an outpoint is owned again,
or by a second pool, just where a step has received it anew (`Settlement.owned_as_received`).
-/

namespace RuneSettlement

namespace PendingTransaction

/-- The outpoints that the intention of a pending transaction names in one of its lists. -/
def outpoints (slot : PendingTransaction) (names : Intention → List String) : List OutPoint :=
  ((slot.intention >>= fun i => OutPoint.parseAll (names i)).toOption).getD []

lemma outpoints_eq {slot : PendingTransaction} {i : Intention} {names : Intention → List String}
    {ids : List OutPoint} (hi : slot.intention = .ok i)
    (hids : OutPoint.parseAll (names i) = .ok ids) : slot.outpoints names = ids := by
  rw [outpoints, hi]
  change (OutPoint.parseAll (names i)).toOption.getD [] = ids
  rw [hids]
  rfl

end PendingTransaction

namespace Settlement

/-- The outputs that the committed pool of an address owns. -/
def outputsOf (s : Settlement) (p : Address) : UtxoSet := (s.registry.get? p).elim .empty Pool.utxos

def owns (s : Settlement) (p : Address) (o : OutPoint) : Bool := (s.outputsOf p).contains o

/-- The outpoints that a step has spent on a pool. -/
def Step.spentOn (step : Step) (p : Address) : List OutPoint :=
  (step.committedOn? p).elim [] fun slot => slot.outpoints (·.spends)

/-- The outpoints that a step has received on a pool: the legs of a deposit that the pool has
admitted, also one whose flow could not be recorded, or what a committed transaction creates. -/
def Step.receivedOn (step : Step) (p : Address) : List OutPoint :=
  match step.call with
  | .deposit address legA legB =>
    if address = p ∧ step.before.pendingOn? p = none ∧
        (step.before.registry.deposit p legA legB).isOk = true then
      [legA.outpoint, legB.outpoint]
    else []
  | _ => (step.committedOn? p).elim [] fun slot => slot.outpoints (·.receives)

/-- The pool that a deposit or a finalization is about. -/
def Step.pool? (step : Step) : Option Address :=
  match step.call with
  | .deposit address _ _ => some address
  | .finalize _ poolKey _ => (step.before.registry.addressForKey poolKey).toOption
  | _ => none

/-- The outpoints that a step has received on the pool that it is about. -/
def Step.received (step : Step) : List OutPoint := step.pool?.elim [] step.receivedOn

variable {s s' : Settlement} {call : Call} {answer : Outcome Receipt} {p q : Address} {step : Step}
  {o : OutPoint}

lemma outputsOf_eq {pool : Pool} (h : s.registry.get? p = some pool) :
    s.outputsOf p = pool.utxos := by
  rw [outputsOf, h, Option.elim_some]

lemma outputsOf_of_get?_eq (h : s'.registry.get? p = s.registry.get? p) :
    s'.outputsOf p = s.outputsOf p := by
  rw [outputsOf, h, outputsOf]

/-! ### What a step spends and receives -/

lemma pool?_of_committedOn? {slot : PendingTransaction} (h : step.committedOn? p = some slot) :
    step.pool? = some p := by
  unfold Step.committedOn? at h
  unfold Step.pool?
  split at h
  · next txid poolKey now _ hcall _ =>
    rw [hcall]
    split at h
    · next hkeyed =>
      dsimp only
      rw [hkeyed]
      rfl
    · cases h
  · cases h

/-- A step receives outpoints on one pool only. -/
lemma pool?_of_mem_receivedOn (h : o ∈ step.receivedOn p) : step.pool? = some p := by
  unfold Step.receivedOn at h
  split at h
  · next address legA legB hcall =>
    unfold Step.pool?
    rw [hcall]
    split at h
    · next hadmitted => rw [hadmitted.1]
    · cases h
  · cases hslot : step.committedOn? p with
    | none =>
      rw [hslot] at h
      cases h
    | some slot => exact pool?_of_committedOn? hslot

lemma mem_received (h : o ∈ step.receivedOn p) : o ∈ step.received := by
  rw [Step.received, pool?_of_mem_receivedOn h]
  exact h

lemma registry_of_deposit {registry : Registry} {legA legB : Utxo}
    (hidle : s.pendingOn? p = none) (hadmitted : s.registry.deposit p legA legB = .ok registry) :
    (s.perform (.deposit p legA legB)).2.registry = registry := by
  obtain ⟨funded, hfunded⟩ := Registry.exists_get?_of_deposit hadmitted
  rw [perform_deposit_of_admitted hidle hadmitted hfunded]
  cases s.flows.record p funded.reserves .empty <;> rfl

lemma turnover_deposit (s : Settlement) (address : Address) (legA legB : Utxo) (p : Address) :
    let call := Call.deposit address legA legB
    (s.outputsOf p).Turnover ((s.perform call).2.outputsOf p) []
      (Step.receivedOn ⟨s, call, (s.perform call).1⟩ p) := by
  intro call
  by_cases hadmits : address = p ∧ s.pendingOn? p = none ∧
      (s.registry.deposit p legA legB).isOk = true
  · have hreceived : Step.receivedOn ⟨s, call, (s.perform call).1⟩ p =
        [legA.outpoint, legB.outpoint] := if_pos hadmits
    obtain ⟨rfl, hidle, hok⟩ := hadmits
    obtain ⟨registry, hregistry⟩ := Outcome.exists_eq_ok_of_isOk hok
    obtain ⟨pool, funded, hpool, -, -, -, hfund, rfl⟩ := Registry.deposit_eq_ok_iff.1 hregistry
    have hstored : (s.perform call).2.registry.get? address = some funded := by
      rw [registry_of_deposit hidle hregistry, Registry.get?_insert, if_pos rfl]
    rw [hreceived, outputsOf_eq hpool, outputsOf_eq hstored]
    exact Pool.turnover_of_fund hfund
  · have hreceived : Step.receivedOn ⟨s, call, (s.perform call).1⟩ p = [] := if_neg hadmits
    have hstored : (s.perform call).2.registry.get? p = s.registry.get? p := by
      have hmove : Moves s (.deposit address legA legB) (s.perform call).1 (s.perform call).2 :=
        moves_perform s call
      generalize s.perform call = result at hmove
      obtain ⟨answer, s'⟩ := result
      cases hmove with
      | refused => rfl
      | funded idle admitted | unrecorded idle admitted =>
        have hother : address ≠ p := by
          rintro rfl
          refine hadmits ⟨rfl, idle, ?_⟩
          rw [admitted]
          rfl
        obtain ⟨_, _, -, -, -, -, -, rfl⟩ := Registry.deposit_eq_ok_iff.1 admitted
        exact (s.registry.get?_insert address p _).trans (if_neg hother)
    rw [hreceived, outputsOf_of_get?_eq hstored]
    exact .refl _

lemma receivedOn_of_ne (h : ∀ address legA legB, step.call ≠ .deposit address legA legB) :
    step.receivedOn p = (step.committedOn? p).elim [] fun slot => slot.outpoints (·.receives) := by
  unfold Step.receivedOn
  split
  · next hcall => exact absurd hcall (h _ _ _)
  · rfl

lemma Moves.turnover (h : Moves s call answer s') (hs : s.Consistent)
    (hother : ∀ address legA legB, call ≠ .deposit address legA legB) (p : Address) :
    (s.outputsOf p).Turnover (s'.outputsOf p) (Step.spentOn ⟨s, call, answer⟩ p)
      (Step.receivedOn ⟨s, call, answer⟩ p) := by
  have hmove := h.poolMove hs p
  generalize hlegs : Step.admittedOn ⟨s, call, answer⟩ p = legs at hmove
  rw [Step.spentOn, receivedOn_of_ne hother]
  generalize Step.committedOn? ⟨s, call, answer⟩ p = slot? at hmove
  cases hmove with
  | kept stored =>
    rw [outputsOf_of_get?_eq stored]
    exact .refl _
  | registered absent stored =>
    rw [outputsOf, absent, outputsOf_eq stored]
    exact .refl _
  | funded | unrecorded => exact absurd rfl (hother _ _ _)
  | @committed _ _ slot pending stored =>
    obtain ⟨plan, i, pool, post, hbasis, hholds, rfl⟩ := hs.exists_basis pending
    obtain ⟨spent, received, hspent, hreceived, hturnover⟩ :=
      Pool.exists_turnover_of_stage hbasis.staged
    have hi : slot.intention = .ok i := hbasis.selected
    rw [outputsOf_eq hbasis.committed, outputsOf_eq stored, hholds.staged, Option.elim_some,
      Option.elim_some, PendingTransaction.outpoints_eq hi hspent,
      PendingTransaction.outpoints_eq hi hreceived]
    exact hturnover

/-- What a call does to the outputs of a pool is what its step spends and receives there. -/
theorem turnover_perform (hs : s.Consistent) (call : Call) (p : Address) :
    let step : Step := ⟨s, call, (s.perform call).1⟩
    (s.outputsOf p).Turnover ((s.perform call).2.outputsOf p) (step.spentOn p)
      (step.receivedOn p) := by
  cases call with
  | deposit address legA legB => exact s.turnover_deposit address legA legB p
  | _ =>
    refine (moves_perform s _).turnover hs ?_ p
    intro _ _ _ hcall
    cases hcall

/-! ### What a run spends and receives -/

lemma turnover_of_mem {rules : Rules} {accounts : AccountBook} {capacity : Nat} {calls : List Call}
    (h : step ∈ (create rules accounts capacity).trace calls) (p : Address) :
    (step.before.outputsOf p).Turnover (step.next.outputsOf p) (step.spentOn p)
      (step.receivedOn p) := by
  obtain ⟨hs, hanswer⟩ := consistent_of_mem_trace h
  have hturnover := turnover_perform hs step.call p
  rw [← hanswer] at hturnover
  exact hturnover

/-- What a pool owns after a run it owned before, or a step has received it. -/
lemma exists_received_of_owns {calls : List Call} (hs : s.Consistent)
    (h : (s.after calls).owns p o = true) :
    s.owns p o = true ∨ ∃ step ∈ s.trace calls, o ∈ step.receivedOn p := by
  induction calls generalizing s with
  | nil => exact .inl h
  | cons call calls ih =>
    rcases ih (hs.move (moves_perform s call)) h with hnext | ⟨step, hstep, hreceived⟩
    · rcases ((turnover_perform hs call p).contains_iff o).1 hnext with hreceived | ⟨howned, -⟩
      · exact .inr ⟨_, List.mem_cons_self, hreceived⟩
      · exact .inl howned
    · exact .inr ⟨step, List.mem_cons_of_mem _ hstep, hreceived⟩

/-- All that the steps have received, on whichever pool. -/
def receipts (steps : List Step) : List OutPoint := steps.flatMap Step.received

lemma mem_receipts {steps : List Step} (hstep : step ∈ steps) (ho : o ∈ step.receivedOn p) :
    o ∈ receipts steps :=
  List.mem_flatMap.2 ⟨step, hstep, mem_received ho⟩

/-- Where no outpoint is received twice, steps that receive the same one are the same. -/
lemma eq_of_mem_received {steps : List Step} {first second : Step} (honce : (receipts steps).Nodup)
    (hfirst : first ∈ steps) (hsecond : second ∈ steps) (hreceived : o ∈ first.receivedOn p)
    (hanew : o ∈ second.receivedOn q) : first = second := by
  by_contra hother
  obtain ⟨-, hapart⟩ := List.nodup_flatMap.1 honce
  have hsymm : Std.Symm (Function.onFun List.Disjoint Step.received) :=
    ⟨fun _ _ hdisjoint _ hfirst hsecond => hdisjoint hsecond hfirst⟩
  exact hapart.forall hfirst hsecond hother (mem_received hreceived) (mem_received hanew)

section Run

variable {rules : Rules} {accounts : AccountBook} {capacity : Nat} {calls : List Call}

lemma exists_receipt_of_owns (h : ((create rules accounts capacity).after calls).owns p o = true) :
    ∃ step ∈ (create rules accounts capacity).trace calls, o ∈ step.receivedOn p := by
  rcases exists_received_of_owns (consistent_create rules accounts capacity) h with
    hstart | hreceived
  · cases hstart
  · exact hreceived

/-- An outpoint that a step has spent on a pool and that the pool owns in the end has been received
by a step before and by this or a later one. -/
lemma exists_receipts_of_spent {earlier later : List Step}
    (hsteps : (create rules accounts capacity).trace calls = earlier ++ step :: later)
    (hspent : o ∈ step.spentOn p) :
    (∃ first ∈ earlier, o ∈ first.receivedOn p) ∧
      (((create rules accounts capacity).after calls).owns p o = true →
        ∃ again ∈ step :: later, o ∈ again.receivedOn p) := by
  have hmem : step ∈ (create rules accounts capacity).trace calls := by simp [hsteps]
  obtain ⟨hs, -⟩ := consistent_of_mem_trace hmem
  have hturnover := turnover_of_mem hmem p
  obtain ⟨past, rest, rfl, hpast, hbefore, -, hrest⟩ := exists_split_of_trace hsteps
  constructor
  · have howned : step.before.owns p o = true := hturnover.owned o hspent
    rw [hbefore] at howned
    obtain ⟨first, hfirst, hreceived⟩ := exists_receipt_of_owns howned
    rw [hpast] at hfirst
    exact ⟨first, hfirst, hreceived⟩
  · intro howned
    rw [after_append, ← hbefore] at howned
    have hnext : step.next.Consistent := hs.move (moves_perform step.before step.call)
    rcases exists_received_of_owns hnext howned with hkept | ⟨again, hagain, hreceived⟩
    · rcases (hturnover.contains_iff o).1 hkept with hreceived | ⟨-, hunspent⟩
      · exact ⟨step, List.mem_cons_self, hreceived⟩
      · exact absurd hspent hunspent
    · rw [hrest] at hagain
      exact ⟨again, List.mem_cons_of_mem _ hagain, hreceived⟩

/-- Two pools own an outpoint only if one step has received it on the one and another step on the
other. -/
lemma exists_receipts_of_owns (hne : p ≠ q)
    (hp : ((create rules accounts capacity).after calls).owns p o = true)
    (hq : ((create rules accounts capacity).after calls).owns q o = true) :
    ∃ first ∈ (create rules accounts capacity).trace calls,
      ∃ second ∈ (create rules accounts capacity).trace calls,
        first ≠ second ∧ o ∈ first.receivedOn p ∧ o ∈ second.receivedOn q := by
  obtain ⟨first, hfirst, hreceived⟩ := exists_receipt_of_owns hp
  obtain ⟨second, hsecond, hother⟩ := exists_receipt_of_owns hq
  refine ⟨first, hfirst, second, hsecond, ?_, hreceived, hother⟩
  rintro rfl
  have hsame : some p = some q :=
    (pool?_of_mem_receivedOn hreceived).symm.trans (pool?_of_mem_receivedOn hother)
  exact hne (Option.some.inj hsame)

end Run

/-- Outputs are owned as they are received. In every run, what a committed transaction
spends is owned by its pool and named once, and what a step receives is not, but for what the same
step spends. The pool owns a spent outpoint again only if the same or a later step has received it
there, and two pools own an outpoint only if each has received it in a step of its own. So where no
outpoint is received twice, what was spent is never owned again, and no outpoint by two pools. -/
theorem owned_as_received (rules : Rules) (accounts : AccountBook) (capacity : Nat)
    (calls : List Call) :
    let steps := (create rules accounts capacity).trace calls
    let s := (create rules accounts capacity).after calls
    (∀ earlier step later p, steps = earlier ++ step :: later →
      (step.spentOn p).Nodup ∧ (step.receivedOn p).Nodup ∧
      (∀ o ∈ step.receivedOn p, step.before.owns p o = true → o ∈ step.spentOn p) ∧
      ∀ o ∈ step.spentOn p, step.before.owns p o = true ∧
        (s.owns p o = true → ∃ again ∈ step :: later, o ∈ again.receivedOn p)) ∧
    (∀ p q o, p ≠ q → s.owns p o = true → s.owns q o = true →
      ∃ first ∈ steps, ∃ second ∈ steps,
        first ≠ second ∧ o ∈ first.receivedOn p ∧ o ∈ second.receivedOn q) ∧
    ((receipts steps).Nodup →
      (∀ step ∈ steps, ∀ p, ∀ o ∈ step.spentOn p, s.owns p o = false) ∧
      ∀ p q o, s.owns p o = true → s.owns q o = true → p = q) := by
  intro steps s
  refine ⟨?_, fun p q o hne => exists_receipts_of_owns hne, ?_⟩
  · intro earlier step later p hsteps
    have hmem : step ∈ steps := by simp [hsteps]
    have hturnover := turnover_of_mem hmem p
    refine ⟨hturnover.spentOnce, hturnover.receivedOnce, hturnover.unowned, ?_⟩
    intro o hspent
    obtain ⟨-, hagain⟩ := exists_receipts_of_spent hsteps hspent
    exact ⟨hturnover.owned o hspent, hagain⟩
  · intro honce
    constructor
    · intro step hstep p o hspent
      by_contra howned
      rw [Bool.not_eq_false] at howned
      obtain ⟨earlier, later, hsteps⟩ := List.append_of_mem hstep
      obtain ⟨⟨first, hfirst, hreceived⟩, hagain⟩ := exists_receipts_of_spent hsteps hspent
      obtain ⟨again, hmem, hanew⟩ := hagain howned
      have hsplit : receipts steps = receipts earlier ++ receipts (step :: later) := by
        rw [hsteps]
        exact List.flatMap_append
      rw [hsplit, List.nodup_append'] at honce
      exact honce.2.2 (mem_receipts hfirst hreceived) (mem_receipts hmem hanew)
    · intro p q o hp hq
      by_contra hne
      obtain ⟨first, hfirst, second, hsecond, hother, hreceived, hanew⟩ :=
        exists_receipts_of_owns hne hp hq
      exact hother (eq_of_mem_received honce hfirst hsecond hreceived hanew)

namespace Sample

/-- The swap, with the output that it spends named as the one that it creates. -/
def returning : Intention := { swap with receives := [legA.outpoint.text] }

/-- A swap gives a pool back the outpoint that it spends, and then another pool is funded with the
same outpoints. -/
def sharing : List Call :=
  [.registerPool "name" ⟨"untweaked", "tweaked", [], "pool"⟩ token 100#128 "",
    .deposit "pool" legA legB,
    .execute ⟨"00", (txid 2).text, ⟨"trader", [returning]⟩, 0#32, 0#32⟩ [] 0#64,
    .finalize (txid 2).text "untweaked" 1#64,
    .registerPool "name" ⟨"key", "tweaked", [], "other"⟩ token 100#128 "",
    .deposit "other" legA legB]

end Sample

theorem owned_as_received_sample :
    let s := (create Sample.rules (.create 0#64 0#128) 10).after Sample.committing
    s.owns "pool" Sample.legA.outpoint = false ∧
      s.owns "pool" ⟨Sample.txid 2, 0#32⟩ = true ∧
      s.owns "other" ⟨Sample.txid 2, 0#32⟩ = false := by
  intro s
  let steps := (create Sample.rules (.create 0#64 0#128) 10).trace Sample.committing
  obtain ⟨hspends, honce, howned⟩ :
      (steps.any fun step => decide (Sample.legA.outpoint ∈ step.spentOn "pool")) = true ∧
      (receipts steps).Nodup ∧ s.owns "pool" ⟨Sample.txid 2, 0#32⟩ = true := by
    decide +kernel
  obtain ⟨step, hstep, hspent⟩ := List.any_eq_true.1 hspends
  obtain ⟨-, -, hunique⟩ :=
    owned_as_received Sample.rules (.create 0#64 0#128) 10 Sample.committing
  obtain ⟨hgone, hsingle⟩ := hunique honce
  refine ⟨hgone step hstep "pool" _ (of_decide_eq_true hspent), howned, ?_⟩
  by_contra hshared
  rw [Bool.not_eq_false] at hshared
  exact absurd (hsingle _ _ _ howned hshared) (by decide)

/-- An outpoint that was spent is owned again, and by two pools. -/
theorem owned_twice :
    let start := create Sample.rules (.create 0#64 0#128) 10
    let s := start.after Sample.sharing
    let o := Sample.legA.outpoint
    (start.trace Sample.sharing).all (·.answer.isOk) = true ∧
      (start.trace Sample.sharing).any (fun step => decide (o ∈ step.spentOn "pool")) = true ∧
      s.owns "pool" o = true ∧ s.owns "other" o = true := by
  decide +kernel

end Settlement

end RuneSettlement
