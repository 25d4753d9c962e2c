import Mathlib.Data.List.Nodup
import RuneSettlement.Proofs.PoolMoves

/-!
# Nonces

The nonce of a pool counts the transactions committed on it, and each of them was made for the nonce
that its commit moved on (`nonce_serializes`). A deposit changes a pool under its nonce, but only
once: a pool that owns outputs is not funded again, and it changes only as its nonce grows.
-/

namespace RuneSettlement.Settlement

/-- The nonce of the pool at an address, zero where there is none. -/
def nonceOn (s : Settlement) (p : Address) : Nat :=
  (s.registry.get? p).elim 0 fun pool => pool.nonce.toNat

lemma nonceOn_eq {s : Settlement} {p : Address} {pool : Pool}
    (h : s.registry.get? p = some pool) : s.nonceOn p = pool.nonce.toNat := by
  rw [nonceOn, h]
  rfl

variable {s s' : Settlement} {p : Address} {call : Call} {answer : Outcome Receipt}
  {legs : List Utxo} {slot? : Option PendingTransaction}

/-- A move of a pool commits nothing and keeps the nonce, or it commits the transaction of an
intention made for the nonce and moves the nonce on by one. -/
theorem PoolMove.nonce_cases (h : PoolMove p s s' call answer legs slot?) (hs : s.Consistent) :
    (slot? = none ∧ s'.nonceOn p = s.nonceOn p) ∨
      ∃ slot i, slot? = some slot ∧ slot.intention = .ok i ∧ i.pool = p ∧
        i.nonce.toNat = s.nonceOn p ∧ s'.nonceOn p = s.nonceOn p + 1 := by
  cases h with
  | kept stored flows =>
    have hnonce : s'.nonceOn p = s.nonceOn p := by rw [nonceOn, nonceOn, stored]
    exact .inl ⟨rfl, hnonce⟩
  | registered absent stored flows =>
    have hnonce : s'.nonceOn p = s.nonceOn p := by
      rw [nonceOn_eq stored, nonceOn, absent]
      rfl
    exact .inl ⟨rfl, hnonce⟩
  | funded current unfunded token fund stored | unrecorded current unfunded token fund stored =>
    -- Funding changes outputs and reserves only.
    obtain ⟨_, _, -, -, rfl⟩ := Pool.fund_eq_ok_iff.1 fund
    have hnonce : s'.nonceOn p = s.nonceOn p := by rw [nonceOn_eq stored, nonceOn_eq current]
    exact .inl ⟨rfl, hnonce⟩
  | @committed _ _ slot pending stored recorded balanced =>
    obtain ⟨plan, i, pool, post, hbasis, hholds, rfl⟩ := hs.exists_basis pending
    have hsucceeds : slot.staged.Succeeds pool := by
      rw [hholds.staged]
      exact Pool.succeeds_of_stage hbasis.staged
    have hcurrent := nonceOn_eq hbasis.committed
    refine .inr ⟨slot, i, rfl, hbasis.selected, rfl, ?_, ?_⟩
    · rw [hcurrent, hbasis.nonce]
    · rw [nonceOn_eq stored, hsucceeds.nonce, hcurrent]

lemma PoolMove.frozen {pool : Pool} (h : PoolMove p s s' call answer legs slot?)
    (hs : s.Consistent) (hpool : s.registry.get? p = some pool) (hfunded : pool.isFunded = true) :
    s'.registry.get? p = some pool ∨ s.nonceOn p < s'.nonceOn p := by
  have hcases := h.nonce_cases hs
  cases h with
  | kept stored flows => exact .inl (stored.trans hpool)
  | registered absent stored flows =>
    rw [hpool] at absent
    cases absent
  | funded current unfunded token fund stored | unrecorded current unfunded token fund stored =>
    rw [hpool] at current
    cases current
    rw [hfunded] at unfunded
    cases unfunded
  | committed pending stored recorded balanced =>
    rcases hcases with ⟨hnone, -⟩ | ⟨_, _, -, -, -, -, hnext⟩
    · cases hnone
    · right
      omega

lemma PoolMove.nonceOn_le (h : PoolMove p s s' call answer legs slot?) (hs : s.Consistent) :
    s.nonceOn p ≤ s'.nonceOn p := by
  rcases h.nonce_cases hs with ⟨-, hkept⟩ | ⟨_, _, -, -, -, -, hnext⟩
  · omega
  · omega

section Run

variable (rules : Rules) (accounts : AccountBook) (capacity : Nat)

/-- The intentions committed on a pool carry the nonces from zero up to the pool's own. -/
theorem nonces_committedOn (calls : List Call) (p : Address) :
    ∃ intentions : List Intention,
      (committedOn ((create rules accounts capacity).trace calls) p).map
        PendingTransaction.intention = intentions.map .ok ∧
      (∀ i ∈ intentions, i.pool = p) ∧
      intentions.map (fun i => i.nonce.toNat) =
        List.range (((create rules accounts capacity).after calls).nonceOn p) := by
  induction calls using List.reverseRecOn with
  | nil => exact ⟨[], rfl, by simp, rfl⟩
  | append_singleton calls call ih =>
    obtain ⟨intentions, hcommitted, hpool, hnonces⟩ := ih
    have hs := consistent_after rules accounts capacity calls
    have hmove := (moves_perform _ call).poolMove hs p
    rw [committedOn_concat, after_concat, List.map_append, hcommitted]
    rcases hmove.nonce_cases hs with ⟨hnone, hkept⟩ | ⟨slot, i, hsome, hi, rfl, hnonce, hnext⟩
    · rw [hnone, hkept]
      exact ⟨intentions, by simp, hpool, hnonces⟩
    · rw [hsome, hnext]
      refine ⟨intentions ++ [i], by simp [hi], ?_, ?_⟩
      · intro j hj
        rcases List.mem_append.1 hj with hj | hj
        · exact hpool j hj
        · rw [List.mem_singleton.1 hj]
      · rw [List.map_append, hnonces, List.range_succ, ← hnonce]
        rfl

/-- Along a run a funded pool is the same until its nonce has grown. -/
theorem frozen_until_commit (calls later : List Call) {pool : Pool}
    (hpool : ((create rules accounts capacity).after calls).registry.get? p = some pool)
    (hfunded : pool.isFunded = true) :
    ((create rules accounts capacity).after (calls ++ later)).registry.get? p = some pool ∨
      pool.nonce.toNat < ((create rules accounts capacity).after (calls ++ later)).nonceOn p := by
  induction later using List.reverseRecOn with
  | nil =>
    rw [List.append_nil]
    exact .inl hpool
  | append_singleton later call ih =>
    have hs := consistent_after rules accounts capacity (calls ++ later)
    have hmove := (moves_perform _ call).poolMove hs p
    rw [← List.append_assoc, after_concat]
    rcases ih with hsame | hgrown
    · have hcurrent := nonceOn_eq hsame
      rcases hmove.frozen hs hsame hfunded with hstill | hgrows
      · exact .inl hstill
      · exact .inr (by omega)
    · have hle := hmove.nonceOn_le hs
      exact .inr (by omega)

/-- The nonce of a pool is its version number. It counts the commits, the intentions committed carry
the nonces `0, 1, 2, …` in order, and a pool that owns outputs at one moment of the run is the same
at every later moment with the same nonce. -/
theorem nonce_serializes (calls : List Call) (p : Address) :
    (∀ pool, ((create rules accounts capacity).after calls).registry.get? p = some pool →
      pool.nonce.toNat =
        (committedOn ((create rules accounts capacity).trace calls) p).length) ∧
    (∃ intentions : List Intention,
      (committedOn ((create rules accounts capacity).trace calls) p).map
        PendingTransaction.intention = intentions.map .ok ∧
      (∀ i ∈ intentions, i.pool = p) ∧
      (∀ (k : Nat) (i : Intention), intentions[k]? = some i → i.nonce.toNat = k) ∧
      (intentions.map (·.nonce)).Nodup) ∧
    ∀ n m pool now, n ≤ m →
      ((create rules accounts capacity).after (calls.take n)).registry.get? p = some pool →
      ((create rules accounts capacity).after (calls.take m)).registry.get? p = some now →
      pool.nonce = now.nonce → pool.utxos.isEmpty = false → pool = now := by
  obtain ⟨intentions, hcommitted, hpool, hnonces⟩ :=
    nonces_committedOn rules accounts capacity calls p
  refine ⟨?_, ⟨intentions, hcommitted, hpool, ?_, ?_⟩, ?_⟩
  · intro pool hstored
    have hlength := congrArg List.length hcommitted
    have hcount := congrArg List.length hnonces
    rw [List.length_map, List.length_map] at hlength
    rw [List.length_map, List.length_range, nonceOn_eq hstored] at hcount
    omega
  · intro k i hi
    have hk : (intentions.map fun i => i.nonce.toNat)[k]? = some i.nonce.toNat := by
      rw [List.getElem?_map, hi]
      rfl
    rw [hnonces] at hk
    obtain ⟨_, hvalue⟩ := List.getElem?_eq_some_iff.1 hk
    simpa using hvalue.symm
  · have hdistinct : ((intentions.map (·.nonce)).map BitVec.toNat).Nodup := by
      rw [List.map_map]
      exact hnonces ▸ List.nodup_range
    exact List.Nodup.of_map _ hdistinct
  · intro n m pool now hle hbefore hafter hnonce howns
    obtain ⟨later, hlater⟩ := List.take_prefix_take_left (l := calls) hle
    have hfunded : pool.isFunded = true := by rw [Pool.isFunded, howns]; rfl
    have hfrozen := frozen_until_commit rules accounts capacity (calls.take n) later hbefore hfunded
    rw [hlater] at hfrozen
    rcases hfrozen with hsame | hgrown
    · exact Option.some.inj (hsame.symm.trans hafter)
    · rw [nonceOn_eq hafter, hnonce] at hgrown
      omega

theorem nonce_serializes_sample :
    let start := create Sample.rules (.create 0#64 0#128) 10
    ∃ pool, (start.after Sample.committing).registry.get? "pool" = some pool ∧
      pool.nonce.toNat = (committedOn (start.trace Sample.committing) "pool").length ∧
      (committedOn (start.trace Sample.committing) "pool").length = 1 := by
  intro start
  obtain ⟨hstored, hlength⟩ :
      ((start.after Sample.committing).registry.get? "pool").isSome = true ∧
        (committedOn (start.trace Sample.committing) "pool").length = 1 := by decide +kernel
  obtain ⟨pool, hpool⟩ := Option.isSome_iff_exists.1 hstored
  have hcount := (nonce_serializes Sample.rules (.create 0#64 0#128) 10 Sample.committing "pool").1
  exact ⟨pool, hpool, hcount pool hpool, hlength⟩

end Run

end RuneSettlement.Settlement
