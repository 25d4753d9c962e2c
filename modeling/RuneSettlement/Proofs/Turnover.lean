import RuneSettlement.Proofs.Staging

/-!
# Outputs that come and go

What a deposit or a transaction does to the outpoints of a pool: all it spends were there and are
gone unless they come back with what is received, and what is received was not there but for what is
spent (`UtxoSet.Turnover`).
-/

namespace RuneSettlement

namespace UtxoSet

/-- Set `s'` owns what set `s` does, less the outpoints spent and with those received. -/
structure Turnover (s s' : UtxoSet) (spent received : List OutPoint) : Prop where
  owned : ∀ o ∈ spent, s.contains o = true
  spentOnce : spent.Nodup
  receivedOnce : received.Nodup
  unowned : ∀ o ∈ received, s.contains o = true → o ∈ spent
  contains_iff : ∀ o, s'.contains o = true ↔ o ∈ received ∨ s.contains o = true ∧ o ∉ spent

variable {s rest s' : UtxoSet} {spent : List OutPoint} {utxos : List Utxo}

lemma contains_eq (s : UtxoSet) (o : OutPoint) : s.contains o = (s.get? o).isSome := rfl

lemma Turnover.refl (s : UtxoSet) : s.Turnover s [] [] where
  owned := by simp
  spentOnce := List.nodup_nil
  receivedOnce := List.nodup_nil
  unowned := by simp
  contains_iff := by simp

lemma turnover_of_spend (h : s.spend spent = .ok (utxos, rest)) : s.Turnover rest spent [] := by
  obtain ⟨hnodup, hfound, hget⟩ := of_spend_eq_ok h
  refine ⟨?_, hnodup, List.nodup_nil, by simp, ?_⟩
  · intro o ho
    have hmem : s.get? o ∈ utxos.map some := by
      rw [← hfound]
      exact List.mem_map_of_mem ho
    obtain ⟨u, -, hu⟩ := List.mem_map.1 hmem
    rw [contains_eq, ← hu, Option.isSome_some]
  · intro o
    rw [contains_eq, hget, contains_eq]
    by_cases ho : o ∈ spent
    · simp [ho]
    · simp [ho]

/-- What is spent may be received again at once. -/
lemma Turnover.receive (h : s.Turnover rest spent []) (hreceive : rest.receive utxos = .ok s') :
    s.Turnover s' spent (utxos.map (·.outpoint)) := by
  obtain ⟨hnodup, hfree, hget⟩ := of_receive_eq_ok hreceive
  refine ⟨h.owned, h.spentOnce, hnodup, ?_, ?_⟩
  · intro o ho howned
    obtain ⟨u, hu, rfl⟩ := List.mem_map.1 ho
    by_contra hkept
    have hrest := (h.contains_iff u.outpoint).2 (.inr ⟨howned, hkept⟩)
    rw [contains_eq, hfree u hu] at hrest
    cases hrest
  · intro o
    have hreceived : (utxos.find? fun u => decide (u.outpoint = o)).isSome = true ↔
        o ∈ utxos.map (·.outpoint) := by
      simp [List.find?_isSome]
    have hrest := h.contains_iff o
    rw [contains_eq] at hrest
    rw [contains_eq, hget, Option.isSome_or, Bool.or_eq_true, hreceived, hrest]
    simp

lemma turnover_of_receive (h : s.receive utxos = .ok s') :
    s.Turnover s' [] (utxos.map (·.outpoint)) :=
  (Turnover.refl s).receive h

end UtxoSet

lemma Shortfall.outpoints_of_fill {sats : Sats} {ids : List OutPoint} {coins : List Coin}
    {utxos : List Utxo} (h : fill sats ids coins = .ok utxos) :
    utxos.map (·.outpoint) = ids := by
  induction ids generalizing sats coins utxos with
  | nil =>
    cases h
    rfl
  | cons id ids ih =>
    obtain ⟨-, others, hothers, rfl⟩ := fill_cons_eq_ok_iff.1 h
    rw [List.map_cons, ih hothers]

lemma outpoints_of_assignReceives {ids : List OutPoint} {remaining post : Reserves}
    {utxos : List Utxo} (h : assignReceives ids remaining post = .ok utxos) :
    utxos.map (·.outpoint) = ids := by
  obtain ⟨shortfall, -, -, hfill⟩ := assignReceives_eq_ok_iff.1 h
  exact Shortfall.outpoints_of_fill hfill

namespace Pool

variable {p next : Pool}

lemma turnover_of_fund {legs : List Utxo} (h : p.fund legs = .ok next) :
    p.utxos.Turnover next.utxos [] (legs.map (·.outpoint)) := by
  obtain ⟨utxos, reserves, hreceive, -, rfl⟩ := fund_eq_ok_iff.1 h
  exact UtxoSet.turnover_of_receive hreceive

theorem exists_turnover_of_stage {spends receives : List String} {post : Reserves}
    (h : p.stage spends receives post = .ok next) :
    ∃ spent received, OutPoint.parseAll spends = .ok spent ∧
      OutPoint.parseAll receives = .ok received ∧
      p.utxos.Turnover next.utxos spent received := by
  obtain ⟨spent, received, _, _, _, outputs, hspent, hreceived, -, -, houtputs, htransition⟩ :=
    stage_eq_ok_iff.1 h
  obtain ⟨_, rest, utxos, _, hspend, hreceive, -, rfl, -⟩ := transition_eq_ok_iff.1 htransition
  have hturnover := (UtxoSet.turnover_of_spend hspend).receive hreceive
  rw [outpoints_of_assignReceives houtputs] at hturnover
  exact ⟨spent, received, hspent, hreceived, hturnover⟩

end Pool

end RuneSettlement
