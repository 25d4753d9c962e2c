import RuneSettlement.Proofs.Redelivery

/-!
# One slot

What a call can do to the pending slot of a pool, and what it is answered for. A slot is filled by
an accepted execution and left through a resolution of the transaction that it holds
(`Settlement.Moves.slot_cases`, `Settlement.Moves.exists_resolution`).
-/

namespace RuneSettlement.Settlement

open ResolutionLog (Entry)

variable {s s' : Settlement} {call : Call} {answer : Outcome Receipt}

/-- All that a move can do to the slot of one pool. -/
lemma Moves.slot_cases (h : Moves s call answer s') (p : Address) :
    s'.pendingOn? p = s.pendingOn? p ∨
      (∃ request confirmed now prepared, call = .execute request confirmed now ∧
        answer = .ok (.staged prepared.stagedExecution) ∧ s.prepare request now = .ok prepared ∧
        prepared.plan.staged.address = p ∧
        s'.pendingOn? p = some (prepared.pendingTransaction request now)) ∨
      ∃ slot text poolKey,
        (call = .rollback text poolKey ∨ ∃ now, call = .finalize text poolKey now) ∧
        Txid.parse text = .ok slot.txid ∧ s.registry.addressForKey poolKey = .ok p ∧
        s.pendingOn? p = some slot ∧ s'.pendingOn? p = none := by
  cases h with
  | @staged request confirmed now prepared checked known =>
    by_cases hp : prepared.plan.staged.address = p
    · refine .inr (.inl ⟨request, confirmed, now, prepared, rfl, rfl, checked, hp, ?_⟩)
      rw [pendingOn?, SortedMap.get?_insert, if_pos (Key.same_iff.2 hp)]
    · refine .inl ?_
      rw [pendingOn?, SortedMap.get?_insert, if_neg (mt Key.same_iff.1 hp)]
      rfl
  | @committed text poolKey now pool slot _ _ _ named keyed pending =>
    by_cases hp : pool = p
    · subst hp
      exact .inr (.inr ⟨slot, text, poolKey, .inr ⟨now, rfl⟩, named, keyed, pending,
        s.pending.get?_erase_self pool⟩)
    · refine .inl ?_
      rw [pendingOn?, SortedMap.get?_erase, if_neg (mt Key.same_iff.1 hp)]
      rfl
  | @dropped text poolKey pool slot named keyed pending =>
    by_cases hp : pool = p
    · subst hp
      exact .inr (.inr ⟨slot, text, poolKey, .inl rfl, named, keyed, pending,
        s.pending.get?_erase_self pool⟩)
    · refine .inl ?_
      rw [pendingOn?, SortedMap.get?_erase, if_neg (mt Key.same_iff.1 hp)]
      rfl
  | _ => exact .inl rfl

lemma Moves.eq_of_execute_refused {request : ExecuteRequest} {confirmed : List CoinId}
    {now : Timestamp} {refusal : Refusal}
    (h : Moves s (.execute request confirmed now) (.error refusal) s') : s' = s := by
  cases h
  rfl

/-- An accepted execution has been prepared, and its transaction is pending. -/
lemma Moves.of_execute_accepted {request : ExecuteRequest} {confirmed : List CoinId}
    {now : Timestamp} {staged : StagedExecution}
    (h : Moves s (.execute request confirmed now) (.ok (.staged staged)) s') :
    ∃ prepared, s.prepare request now = .ok prepared ∧ prepared.stagedExecution = staged ∧
      s'.pendingOn? prepared.plan.staged.address =
        some (prepared.pendingTransaction request now) := by
  cases h with
  | staged checked known =>
    refine ⟨_, checked, rfl, ?_⟩
    rw [pendingOn?, SortedMap.get?_insert, if_pos (Key.same_iff.2 rfl)]

/-- A key leads where it has led before. -/
lemma Moves.addressForKey (h : Moves s call answer s') {key : String} {address : Address}
    (hkey : s.registry.addressForKey key = .ok address) :
    s'.registry.addressForKey key = .ok address := by
  cases h with
  | registered new =>
    obtain ⟨-, hfree, rfl⟩ := Registry.register_eq_ok_iff.1 new
    rw [Registry.addressForKey, Outcome.ofOption_eq_ok_iff] at hkey ⊢
    rw [SortedMap.get?_insert, if_neg]
    · exact hkey
    · intro hsame
      rw [Key.same_iff.1 hsame, hkey] at hfree
      cases hfree
  | funded _ admitted | unrecorded _ admitted =>
    obtain ⟨_, _, -, -, -, -, -, rfl⟩ := Registry.deposit_eq_ok_iff.1 admitted
    exact hkey
  | committed _ _ _ _ _ next _ =>
    obtain ⟨_, -, -, -, rfl⟩ := Registry.commit_eq_ok_iff.1 next
    exact hkey
  | _ => exact hkey

/-- What takes a pending transaction from its slot resolves it, and what finalizes it commits what
it has staged. -/
lemma Moves.exists_resolution {p : Address} {slot : PendingTransaction}
    (h : Moves s call answer s') (hs : s.Consistent) (hslot : s.pendingOn? p = some slot)
    (hleft : s'.pendingOn? p ≠ some slot) :
    ∃ resolution, Step.resolution? ⟨s, call, answer⟩ = some ((p, slot.txid), resolution) ∧
      (resolution = .finalized → s'.registry.get? p = some slot.staged) := by
  cases h with
  | @staged request _ now prepared checked =>
    obtain ⟨i, pool, post, hbasis, hidle, -⟩ := exists_basis_of_prepare checked
    have haddress := address_of_basis hs.filed hbasis
    rw [pendingOn?, SortedMap.get?_insert, haddress,
      if_neg (mt Key.same_iff.1 (ne_of_pendingOn? hidle hslot))] at hleft
    exact absurd hslot hleft
  | @committed text poolKey now pool other _ _ _ named keyed pending _ _ next _ =>
    rw [pendingOn?, SortedMap.get?_erase] at hleft
    split at hleft
    · next hsame =>
      obtain rfl := Key.same_iff.1 hsame
      obtain rfl := Option.some.inj (hslot.symm.trans pending)
      obtain ⟨_, -, -, -, rfl⟩ := Registry.commit_eq_ok_iff.1 next
      refine ⟨.finalized, ?_, fun _ => ?_⟩
      · simp only [Step.resolution?, named?_eq_some named keyed pending, Option.map_some]
      · rw [Registry.get?_insert, if_pos (hs.staged_address hslot)]
    · exact absurd hslot hleft
  | @dropped text poolKey pool other named keyed pending =>
    rw [pendingOn?, SortedMap.get?_erase] at hleft
    split at hleft
    · next hsame =>
      obtain rfl := Key.same_iff.1 hsame
      obtain rfl := Option.some.inj (hslot.symm.trans pending)
      refine ⟨.rolledBack, ?_, by simp⟩
      simp only [Step.resolution?, named?_eq_some named keyed pending, Option.map_some]
    · exact absurd hslot hleft
  | _ => exact absurd hslot hleft

lemma perform_rollback_of_pending {text poolKey : String} {p : Address} {txid : Txid}
    (htext : Txid.parse text = .ok txid) (hkey : s.registry.addressForKey poolKey = .ok p)
    (hpending : s.isPending p txid = true) :
    s.perform (.rollback text poolKey) =
      (.ok .done, { s with
        pending := s.pending.erase p
        resolutions := s.resolutions.record (p, txid) .rolledBack }) := by
  simp only [perform, Call.act, Settlement.rollback, run_bind, run_get, run_set, run_ofOutcome,
    run_pure, htext, hkey, hpending, if_true]

/-- A rollback leaves a state in which the transaction is not pending. Where it was pending it is
rolled back, and otherwise nothing changes. -/
lemma rollback_cases {room : Nat} {history : List Entry} {text poolKey : String} {p : Address}
    {txid : Txid} (h : s.Remembers room history) (hroom : 0 < room)
    (htext : Txid.parse text = .ok txid) (hkey : s.registry.addressForKey poolKey = .ok p) :
    (s.isPending p txid = true ∧
        (s.perform (.rollback text poolKey)).2.isPending p txid = false ∧
        (s.perform (.rollback text poolKey)).2.status? p txid = some (.resolved .rolledBack)) ∨
      s.isPending p txid = false ∧ (s.perform (.rollback text poolKey)).2 = s := by
  cases hpending : s.isPending p txid with
  | true =>
    obtain ⟨slot, hslot, rfl⟩ := isPending_iff.1 hpending
    have hsettled : (s.perform (.rollback text poolKey)).2.isPending p slot.txid = false := by
      rw [perform_rollback_of_pending htext hkey hpending, isPending, pendingOn?,
        SortedMap.get?_erase_self]
      rfl
    refine .inl ⟨rfl, hsettled, status?_eq_resolved_iff.2 ⟨hsettled, ?_⟩⟩
    rw [perform_rollback_of_pending htext hkey hpending]
    exact h.log.get?_record .rolledBack (h.capacity ▸ hroom) (h.apart p slot hslot)
  | false =>
    refine .inr ⟨rfl, ?_⟩
    by_cases hlogged : s.resolutions.get? p txid = some .finalized
    · rw [(redelivered_of_finalized hkey hpending hlogged).rollback text htext]
    · rw [(redelivered_of_uncommitted hkey hpending hlogged).rollback text htext]

/-- What a prepared execution is for: an empty slot, a key that leads to its pool, and the present
nonce of the pool. -/
lemma Consistent.of_prepare {request : ExecuteRequest} {now : Timestamp} {prepared : Prepared}
    (hs : s.Consistent) (hkeyed : s.registry.Keyed) (h : s.prepare request now = .ok prepared) :
    Txid.parse request.txid = .ok prepared.txid ∧
      s.pendingOn? prepared.plan.staged.address = none ∧
      s.registry.addressForKey prepared.plan.staged.keys.untweaked =
        .ok prepared.plan.staged.address ∧
      ∃ i pool, request.set.select request.index = .ok i ∧
        i.pool = prepared.plan.staged.address ∧
        s.registry.get? prepared.plan.staged.address = some pool ∧ i.nonce = pool.nonce := by
  obtain ⟨i, pool, post, hbasis, hidle, -, htext⟩ := exists_basis_of_prepare h
  have haddress := address_of_basis hs.filed hbasis
  have hkeys := (Pool.succeeds_of_stage hbasis.staged).keys
  rw [haddress, hkeys]
  exact ⟨htext, hidle, hkeyed i.pool pool hbasis.committed, i, pool, hbasis.selected, rfl,
    hbasis.committed, hbasis.nonce⟩

end RuneSettlement.Settlement
