import RuneSettlement.Proofs.PoolMoves

/-!
# Conservation of reserves

The reserves of a pool and the flows recorded for it are kept apart and change in different calls.
Along a run the recorded flows are exactly what was admitted and committed, and they balance to the
reserves (`Settlement.Accounted`). Reserves and balances are both canonical, so equal amounts make
them equal. Only a deposit whose flow does not fit the book breaks this.
-/

namespace RuneSettlement

namespace Flows

structure Canonical (f : Flows) : Prop where
  inflow : f.inflow.Canonical
  outflow : f.outflow.Canonical

lemma canonical_empty : empty.Canonical := ⟨Reserves.canonical_empty, Reserves.canonical_empty⟩

/-- Canonical flows balance to the canonical reserves that make up the difference of their sums. -/
theorem balance_eq_ok_iff {f : Flows} {r : Reserves} (hf : f.Canonical) :
    f.balance = .ok r ↔ r.Canonical ∧ ∀ id,
      (r.amountOf id).toNat + (f.outflow.amountOf id).toNat = (f.inflow.amountOf id).toNat := by
  constructor
  · intro h
    refine ⟨hf.inflow.debitAll h, ?_⟩
    intro id
    rw [← Reserves.total_coins hf.outflow]
    exact Reserves.toNat_amountOf_debitAll h id
  · rintro ⟨hr, hamounts⟩
    have hcovered : ∀ id, Coin.total f.outflow.coins id ≤ (f.inflow.amountOf id).toNat := by
      intro id
      rw [Reserves.total_coins hf.outflow, ← hamounts id]
      exact Nat.le_add_left _ _
    obtain ⟨balance, hbalance⟩ := Reserves.exists_debitAll_eq_ok hcovered
    have hsame : balance = r := by
      apply Reserves.ext_amountOf (hf.inflow.debitAll hbalance) hr
      intro id
      have hleft := Reserves.toNat_amountOf_debitAll hbalance id
      have hright := hamounts id
      rw [Reserves.total_coins hf.outflow] at hleft
      omega
    rw [← hsame]
    exact hbalance

lemma add_eq_ok_iff {f f' : Flows} {inflow outflow : Reserves} :
    f.add inflow outflow = .ok f' ↔
      f.inflow.merge inflow = .ok f'.inflow ∧ f.outflow.merge outflow = .ok f'.outflow := by
  simp only [add, Outcome.bind_eq_ok_iff, Outcome.pure_eq_ok_iff]
  constructor
  · rintro ⟨_, hin, _, hout, rfl⟩
    exact ⟨hin, hout⟩
  · rintro ⟨hin, hout⟩
    exact ⟨f'.inflow, hin, f'.outflow, hout, rfl⟩

lemma Canonical.add {f f' : Flows} {inflow outflow : Reserves} (hf : f.Canonical)
    (h : f.add inflow outflow = .ok f') : f'.Canonical := by
  obtain ⟨hin, hout⟩ := add_eq_ok_iff.1 h
  exact ⟨hf.inflow.merge hin, hf.outflow.merge hout⟩

lemma toNat_amountOf_add {f f' : Flows} {inflow outflow : Reserves} (hin : inflow.Canonical)
    (hout : outflow.Canonical) (h : f.add inflow outflow = .ok f') (id : CoinId) :
    (f'.inflow.amountOf id).toNat =
        (f.inflow.amountOf id).toNat + (inflow.amountOf id).toNat ∧
      (f'.outflow.amountOf id).toNat =
        (f.outflow.amountOf id).toNat + (outflow.amountOf id).toNat := by
  obtain ⟨hinflow, houtflow⟩ := add_eq_ok_iff.1 h
  constructor
  · exact Reserves.toNat_amountOf_merge hin hinflow id
  · exact Reserves.toNat_amountOf_merge hout houtflow id

lemma eq_overflow_of_add {f : Flows} {inflow outflow : Reserves} {refusal : Refusal}
    (hin : inflow.Canonical) (hout : outflow.Canonical)
    (h : f.add inflow outflow = .error refusal) : refusal = .overflow := by
  rcases Outcome.bind_eq_error_iff.1 h with h | ⟨_, -, h⟩
  · exact Reserves.eq_overflow_of_merge hin h
  · rcases Outcome.bind_eq_error_iff.1 h with h | ⟨_, -, h⟩
    · exact Reserves.eq_overflow_of_merge hout h
    · cases h

end Flows

namespace UtxoSet

lemma toList_of_isEmpty {s : UtxoSet} (h : s.isEmpty = true) : s.toList = [] := by
  rw [isEmpty_iff.1 h]
  rfl

lemma reserves_of_isEmpty {s : UtxoSet} (h : s.isEmpty = true) : s.reserves = .ok .empty := by
  rw [reserves, toList_of_isEmpty h]
  rfl

end UtxoSet

/-- The first deposit of a pool leaves it with what the legs hold. -/
lemma Pool.toNat_amountOf_fund {p next : Pool} {legs : List Utxo} (hunfunded : p.isFunded = false)
    (h : p.fund legs = .ok next) (id : CoinId) :
    (next.reserves.amountOf id).toNat = Coin.total (legs.flatMap Utxo.coins) id := by
  obtain ⟨utxos, reserves, hreceive, hreserves, rfl⟩ := fund_eq_ok_iff.1 h
  have hempty : p.utxos.toList = [] := by
    apply UtxoSet.toList_of_isEmpty
    simpa [isFunded] using hunfunded
  have hperm := UtxoSet.toList_perm_of_receive hreceive
  rw [hempty, List.append_nil] at hperm
  rw [UtxoSet.toNat_amountOf_reserves hreserves]
  exact Coin.total_perm (hperm.flatMap_right Utxo.coins) id

namespace Settlement

/-- The committed reserves of the pool at an address, nothing where there is none. -/
def reservesOn (s : Settlement) (p : Address) : Reserves :=
  (s.registry.get? p).elim .empty Pool.reserves

lemma reservesOn_eq {s : Settlement} {p : Address} {pool : Pool}
    (h : s.registry.get? p = some pool) : s.reservesOn p = pool.reserves := by
  rw [reservesOn, h]
  rfl

/-- The flows recorded for a pool are what the legs and the intentions have brought in and taken
out, they balance to its reserves, and these are the sum of its outputs. -/
structure Accounted (s : Settlement) (p : Address) (legs : List Utxo)
    (intentions : List Intention) : Prop where
  canonical : (s.flows.flowsOf p).Canonical
  inflow : ∀ id, ((s.flows.flowsOf p).inflow.amountOf id).toNat =
    Coin.total (legs.flatMap Utxo.coins) id +
      Coin.total (intentions.flatMap Intention.inputCoins) id
  outflow : ∀ id, ((s.flows.flowsOf p).outflow.amountOf id).toNat =
    Coin.total (intentions.flatMap Intention.outputCoins) id
  balanced : (s.flows.flowsOf p).balance = .ok (s.reservesOn p)
  projected : ∀ pool, s.registry.get? p = some pool → pool.utxos.reserves = .ok pool.reserves

namespace Accounted

variable {s s' : Settlement} {p : Address} {legs : List Utxo} {intentions : List Intention}

lemma frame (h : s.Accounted p legs intentions)
    (hflows : s'.flows.flowsOf p = s.flows.flowsOf p)
    (hreserves : s'.reservesOn p = s.reservesOn p)
    (hprojected : ∀ pool, s'.registry.get? p = some pool →
      pool.utxos.reserves = .ok pool.reserves) :
    s'.Accounted p legs intentions where
  canonical := hflows ▸ h.canonical
  inflow := hflows ▸ h.inflow
  outflow := hflows ▸ h.outflow
  balanced := by rw [hflows, hreserves, h.balanced]
  projected := hprojected

lemma fund {pool next : Pool} {legA legB : Utxo} (h : s.Accounted p legs intentions)
    (current : s.registry.get? p = some pool) (unfunded : pool.isFunded = false)
    (fund : pool.fund [legA, legB] = .ok next) (stored : s'.registry.get? p = some next)
    (recorded : (s.flows.flowsOf p).add next.reserves .empty = .ok (s'.flows.flowsOf p)) :
    s'.Accounted p (legs ++ [legA, legB]) intentions := by
  obtain ⟨utxos, reserves, -, hreserves, hnext⟩ := Pool.fund_eq_ok_iff.1 fund
  have hprojected : next.utxos.reserves = .ok next.reserves := by rw [hnext, hreserves]
  have hcanonical : next.reserves.Canonical := UtxoSet.canonical_of_reserves hprojected
  have hadd := Flows.toNat_amountOf_add hcanonical Reserves.canonical_empty recorded
  have hlegs := Pool.toNat_amountOf_fund unfunded fund
  -- The pool owned nothing, so its flows have balanced to nothing so far.
  have hempty : s.reservesOn p = .empty := by
    have hnone : pool.utxos.reserves = .ok .empty :=
      UtxoSet.reserves_of_isEmpty (by simpa [Pool.isFunded] using unfunded)
    rw [reservesOn_eq current]
    exact Except.ok.inj ((h.projected pool current).symm.trans hnone)
  have hbefore := ((Flows.balance_eq_ok_iff h.canonical).1 h.balanced).2
  have hafter := h.canonical.add recorded
  refine ⟨hafter, ?_, ?_, ?_, ?_⟩
  · intro id
    rw [(hadd id).1, h.inflow, hlegs, List.flatMap_append, Coin.total_append]
    omega
  · intro id
    rw [(hadd id).2, h.outflow, Reserves.amountOf_empty]
    rfl
  · rw [reservesOn_eq stored, Flows.balance_eq_ok_iff hafter]
    refine ⟨hcanonical, ?_⟩
    intro id
    have hid := hbefore id
    rw [hempty, Reserves.amountOf_empty] at hid
    rw [(hadd id).1, (hadd id).2, Reserves.amountOf_empty]
    omega
  · intro found hfound
    rw [stored] at hfound
    cases hfound
    exact hprojected

lemma commit {slot : PendingTransaction} (h : s.Accounted p legs intentions) (hs : s.Consistent)
    (pending : s.pendingOn? p = some slot) (stored : s'.registry.get? p = some slot.staged)
    (recorded : (s.flows.flowsOf p).add slot.inflow slot.outflow = .ok (s'.flows.flowsOf p))
    (balanced : (s'.flows.flowsOf p).balance = .ok slot.staged.reserves) :
    ∃ i, slot.intention = .ok i ∧ i.pool = p ∧ s'.Accounted p legs (intentions ++ [i]) := by
  obtain ⟨plan, i, pool, post, hbasis, hholds, hpool⟩ := hs.exists_basis pending
  have hin : Reserves.empty.creditAll i.inputCoins = .ok slot.inflow := by
    rw [hholds.inflow, hbasis.inflow]
  have hout : Reserves.empty.creditAll i.outputCoins = .ok slot.outflow := by
    rw [hholds.outflow, hbasis.outflow]
  have hadd := Flows.toNat_amountOf_add (Reserves.canonical_empty.creditAll hin)
    (Reserves.canonical_empty.creditAll hout) recorded
  refine ⟨i, hbasis.selected, hpool, h.canonical.add recorded, ?_, ?_, ?_, ?_⟩
  · intro id
    rw [(hadd id).1, h.inflow, Reserves.toNat_amountOf_creditAll hin, Reserves.amountOf_empty,
      List.flatMap_append, Coin.total_append, List.flatMap_singleton]
    simp [Nat.add_assoc]
  · intro id
    rw [(hadd id).2, h.outflow, Reserves.toNat_amountOf_creditAll hout, Reserves.amountOf_empty,
      List.flatMap_append, Coin.total_append, List.flatMap_singleton]
    simp
  · rw [reservesOn_eq stored]
    exact balanced
  · intro found hfound
    rw [stored] at hfound
    cases hfound
    rw [hholds.staged]
    exact Pool.checkReserves_eq_ok_iff.1 (Pool.reserves_of_stage hbasis.staged).2

end Accounted

variable {s s' : Settlement} {p : Address} {call : Call} {answer : Outcome Receipt}
  {legs moved : List Utxo} {slot? : Option PendingTransaction} {intentions : List Intention}

/-- A move keeps the books, unless it funds the pool and its flow overflows. -/
theorem PoolMove.accounted (hmove : PoolMove p s s' call answer moved slot?) (hs : s.Consistent)
    (hfits : ∀ legA legB, call = .deposit p legA legB → answer ≠ .error .overflow)
    (h : s.Accounted p legs intentions) :
    ∃ committed : List Intention,
      slot?.toList.map PendingTransaction.intention = committed.map .ok ∧
      (∀ i ∈ committed, i.pool = p) ∧ s'.Accounted p (legs ++ moved) (intentions ++ committed) := by
  cases hmove with
  | kept stored flows =>
    have hreserves : s'.reservesOn p = s.reservesOn p := by rw [reservesOn, reservesOn, stored]
    have hprojected := h.projected
    rw [← stored] at hprojected
    refine ⟨[], rfl, by simp, ?_⟩
    rw [List.append_nil, List.append_nil]
    exact h.frame flows hreserves hprojected
  | registered absent stored flows =>
    have hreserves : s'.reservesOn p = s.reservesOn p := by
      rw [reservesOn_eq stored, reservesOn, absent]
      rfl
    refine ⟨[], rfl, by simp, ?_⟩
    rw [List.append_nil, List.append_nil]
    apply h.frame flows hreserves
    intro pool hpool
    rw [stored] at hpool
    cases hpool
    rfl
  | funded current unfunded token fund stored recorded =>
    refine ⟨[], rfl, by simp, ?_⟩
    rw [List.append_nil]
    exact h.fund current unfunded fund stored recorded
  | @unrecorded legA legB pool next refusal current unfunded token fund stored flows beyond =>
    -- A flow that the book refuses overflows, and no deposit on this pool does.
    obtain ⟨utxos, reserves, -, hreserves, rfl⟩ := Pool.fund_eq_ok_iff.1 fund
    have hcanonical : reserves.Canonical := UtxoSet.canonical_of_reserves hreserves
    have hoverflow := Flows.eq_overflow_of_add hcanonical Reserves.canonical_empty beyond
    rw [hoverflow] at hfits
    exact absurd rfl (hfits legA legB rfl)
  | committed pending stored recorded balanced =>
    obtain ⟨i, hi, hpool, haccounted⟩ := h.commit hs pending stored recorded balanced
    refine ⟨[i], by simp [hi], by simp [hpool], ?_⟩
    rw [List.append_nil]
    exact haccounted

section Run

variable {rules : Rules} {accounts : AccountBook} {capacity : Nat} {calls : List Call}

lemma accounted_create (rules : Rules) (accounts : AccountBook) (capacity : Nat) (p : Address) :
    (create rules accounts capacity).Accounted p [] [] where
  canonical := Flows.canonical_empty
  inflow := by
    intro id
    exact congrArg BitVec.toNat (Reserves.amountOf_empty id)
  outflow := by
    intro id
    exact congrArg BitVec.toNat (Reserves.amountOf_empty id)
  balanced := rfl
  projected := by
    intro pool hpool
    simp [create] at hpool

theorem accounted_after
    (hfits : ∀ step ∈ (create rules accounts capacity).trace calls, ∀ legA legB,
      step.call = .deposit p legA legB → step.answer ≠ .error .overflow) :
    ∃ intentions : List Intention,
      (committedOn ((create rules accounts capacity).trace calls) p).map
        PendingTransaction.intention = intentions.map .ok ∧
      (∀ i ∈ intentions, i.pool = p) ∧
      ((create rules accounts capacity).after calls).Accounted p
        (admittedOn ((create rules accounts capacity).trace calls) p) intentions := by
  induction calls using List.reverseRecOn with
  | nil => exact ⟨[], rfl, by simp, accounted_create rules accounts capacity p⟩
  | append_singleton calls call ih =>
    rw [trace_concat] at hfits
    obtain ⟨intentions, hcommitted, hpool, haccounted⟩ :=
      ih fun step hstep => hfits step (List.mem_append_left _ hstep)
    have hs := consistent_after rules accounts capacity calls
    have hmove := (moves_perform _ call).poolMove hs p
    have hlast := hfits _ (List.mem_append_right _ (List.mem_singleton_self _))
    obtain ⟨more, hmore, hmorePool, hnext⟩ := hmove.accounted hs hlast haccounted
    rw [committedOn_concat, admittedOn_concat, after_concat, List.map_append, hcommitted, hmore,
      ← List.map_append]
    refine ⟨intentions ++ more, rfl, ?_, hnext⟩
    intro i hi
    rcases List.mem_append.1 hi with hi | hi
    · exact hpool i hi
    · exact hmorePool i hi

/-- Reserves are conserved. After a run in which no deposit on a pool overflows, the pool holds what
its deposit and the inputs of the intentions finalized on it have brought in less what their outputs
have taken out, and the recorded flows balance to just these reserves. -/
theorem reserves_conserved {pool : Pool}
    (hpool : ((create rules accounts capacity).after calls).registry.get? p = some pool)
    (hfits : ∀ step ∈ (create rules accounts capacity).trace calls, ∀ legA legB,
      step.call = .deposit p legA legB → step.answer ≠ .error .overflow) :
    ∃ intentions : List Intention,
      (committedOn ((create rules accounts capacity).trace calls) p).map
        PendingTransaction.intention = intentions.map .ok ∧
      (∀ i ∈ intentions, i.pool = p) ∧
      (∀ id, ((pool.reserves.amountOf id).toNat : Int) =
        Coin.total ((admittedOn ((create rules accounts capacity).trace calls) p).flatMap
          Utxo.coins) id +
        Coin.total (intentions.flatMap Intention.inputCoins) id -
        Coin.total (intentions.flatMap Intention.outputCoins) id) ∧
      ((create rules accounts capacity).after calls).flows.expectedReserves p =
        .ok pool.reserves := by
  obtain ⟨intentions, hcommitted, hnamed, h⟩ := accounted_after hfits
  have hreserves := reservesOn_eq hpool
  have hbalanced := h.balanced
  rw [hreserves] at hbalanced
  have hamounts := ((Flows.balance_eq_ok_iff h.canonical).1 hbalanced).2
  refine ⟨intentions, hcommitted, hnamed, ?_, hbalanced⟩
  intro id
  have hid := hamounts id
  rw [h.inflow, h.outflow] at hid
  omega

theorem reserves_conserved_sample :
    let s := (create Sample.rules (.create 0#64 0#128) 10).after Sample.committing
    ∃ pool, s.registry.get? "pool" = some pool ∧
      s.flows.expectedReserves "pool" = .ok pool.reserves := by
  intro s
  obtain ⟨hstored, haccepted⟩ : (s.registry.get? "pool").isSome = true ∧
      ∀ step ∈ (create Sample.rules (.create 0#64 0#128) 10).trace Sample.committing,
        step.answer.isOk = true := by decide +kernel
  obtain ⟨pool, hpool⟩ := Option.isSome_iff_exists.1 hstored
  have hfits : ∀ step ∈ (create Sample.rules (.create 0#64 0#128) 10).trace Sample.committing,
      ∀ legA legB, step.call = .deposit "pool" legA legB → step.answer ≠ .error .overflow := by
    intro step hstep legA legB _ hrefused
    have hok := haccepted step hstep
    rw [hrefused] at hok
    cases hok
  obtain ⟨_, -, -, -, hexpected⟩ := reserves_conserved hpool hfits
  exact ⟨pool, hpool, hexpected⟩

end Run

end Settlement

end RuneSettlement
