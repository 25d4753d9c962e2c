import RuneSettlement.Proofs.Resolutions

/-!
# Repeated deliveries

Requests for a resolution may be delivered more than once. What a repeated one is answered depends
only on how the transaction ended, as far as the log remembers, and it changes nothing
(`Settlement.redelivery_safe`).
-/

namespace RuneSettlement.Settlement

open ResolutionLog (Entry)

def alreadyFinalized (txid : Txid) : Refusal :=
  .invalidState ("transaction " ++ txid.text ++ " already finalized")

/-- A request to finalize or to roll back the transaction, however it is written, is answered so and
leaves the state as it is. -/
structure Redelivered (s : Settlement) (txid : Txid) (poolKey : String)
    (finalize rollback : Outcome Receipt) : Prop where
  finalize : ∀ text now, Txid.parse text = .ok txid →
    s.perform (.finalize text poolKey now) = (finalize, s)
  rollback : ∀ text, Txid.parse text = .ok txid →
    s.perform (.rollback text poolKey) = (rollback, s)

variable {s : Settlement} {pool : Address} {txid : Txid} {poolKey : String}

lemma redelivered_of_finalized (hkey : s.registry.addressForKey poolKey = .ok pool)
    (hsettled : s.isPending pool txid = false)
    (hlogged : s.resolutions.get? pool txid = some .finalized) :
    s.Redelivered txid poolKey (.ok .done) (.error (alreadyFinalized txid)) where
  finalize := by
    intro text now htext
    simp only [perform, Call.act, Settlement.finalize, run_bind, run_get, run_ofOutcome, run_pure,
      htext, hkey, hsettled, hlogged, Bool.false_eq_true, if_false, if_true]
  rollback := by
    intro text htext
    simp only [perform, Call.act, Settlement.rollback, run_bind, run_get, run_ofOutcome, run_throw,
      htext, hkey, hsettled, hlogged, Bool.false_eq_true, if_false, if_true]
    rfl

lemma redelivered_of_uncommitted (hkey : s.registry.addressForKey poolKey = .ok pool)
    (hsettled : s.isPending pool txid = false)
    (huncommitted : s.resolutions.get? pool txid ≠ some .finalized) :
    s.Redelivered txid poolKey (.error .nothingPending) (.ok .done) where
  finalize := by
    intro text now htext
    simp only [perform, Call.act, Settlement.finalize, run_bind, run_get, run_ofOutcome, run_throw,
      htext, hkey, hsettled, huncommitted, Bool.false_eq_true, if_false]
  rollback := by
    intro text htext
    simp only [perform, Call.act, Settlement.rollback, run_bind, run_get, run_ofOutcome, run_pure,
      htext, hkey, hsettled, huncommitted, Bool.false_eq_true, if_false]

/-- A transaction in the log is not executed again. -/
lemma execute_of_logged {request : ExecuteRequest} {i : Intention} {confirmed : List CoinId}
    {now : Timestamp} {resolution : Resolution} (htext : Txid.parse request.txid = .ok txid)
    (hselect : request.set.select request.index = .ok i)
    (hlogged : s.resolutions.get? i.pool txid = some resolution) :
    ∃ refusal, s.perform (.execute request confirmed now) = (.error refusal, s) := by
  have hrefused : ∃ refusal, s.prepare request now = .error refusal := by
    cases hprepare : s.prepare request now with
    | error refusal => exact ⟨refusal, rfl⟩
    | ok prepared =>
      obtain ⟨j, hj, -, hfresh, hid, -, -⟩ := of_prepare_eq_ok hprepare
      obtain rfl := Except.ok.inj (hselect.symm.trans hj)
      rw [← Except.ok.inj (htext.symm.trans hid), hlogged] at hfresh
      cases hfresh
  obtain ⟨refusal, hprepare⟩ := hrefused
  refine ⟨refusal, ?_⟩
  simp only [perform, Call.act, Settlement.execute, run_bind, run_get, run_ofOutcome, hprepare]

lemma status?_eq_resolved_iff {resolution : Resolution} :
    s.status? pool txid = some (.resolved resolution) ↔
      s.isPending pool txid = false ∧ s.resolutions.get? pool txid = some resolution := by
  unfold status?
  cases s.isPending pool txid <;> simp

lemma status?_eq_none_iff :
    s.status? pool txid = none ↔
      s.isPending pool txid = false ∧ s.resolutions.get? pool txid = none := by
  unfold status?
  cases s.isPending pool txid <;> simp

/-- Every resolution of a run belongs to one of its operations. -/
lemma exists_split_of_resolved {operations : List Operation} {earlier later : List Entry}
    {entry : Entry} (h : s.resolved operations = earlier ++ entry :: later) :
    ∃ before operation after, operations = before ++ operation :: after ∧
      operation.resolution? (s.reached before) = some entry ∧
      (s.reached (before ++ [operation])).resolved after = later := by
  induction operations generalizing s earlier with
  | nil => simp [resolved] at h
  | cons first operations ih =>
    rw [resolved] at h
    cases hfirst : first.resolution? s with
    | none =>
      rw [hfirst, Option.toList_none, List.nil_append] at h
      obtain ⟨before, operation, after, rfl, hentry, hlater⟩ := ih h
      exact ⟨first :: before, operation, after, rfl, hentry, hlater⟩
    | some resolution =>
      rw [hfirst, Option.toList_some, List.singleton_append] at h
      cases earlier with
      | nil =>
        obtain ⟨rfl, hlater⟩ := List.cons.inj h
        exact ⟨[], first, operations, rfl, hfirst, hlater⟩
      | cons _ earlier =>
        obtain ⟨before, operation, after, rfl, hentry, hlater⟩ := ih (List.cons.inj h).2
        exact ⟨first :: before, operation, after, rfl, hentry, hlater⟩

/-- What the log holds is the outcome of an operation of the run that not too many resolutions have
followed. -/
lemma Remembers.exists_recent {start : Settlement} {room : Nat} {operations : List Operation}
    {resolution : Resolution}
    (h : (start.reached operations).Remembers room (start.resolved operations))
    (hlogged : (start.reached operations).resolutions.get? pool txid = some resolution) :
    ∃ earlier operation later, operations = earlier ++ operation :: later ∧
      operation.resolution? (start.reached earlier) = some ((pool, txid), resolution) ∧
      ((start.reached (earlier ++ [operation])).resolved later).length < room := by
  rw [h.log.get?_eq_some_iff] at hlogged
  obtain ⟨past, recent, hsplit, hlength⟩ := exists_split_of_mem_rtake hlogged
  obtain ⟨earlier, operation, later, rfl, hresolves, rfl⟩ := exists_split_of_resolved hsplit
  exact ⟨earlier, operation, later, rfl, hresolves, hlength⟩

/-- Deliveries may be repeated. In every state that a run of operations reaches, no transaction is
both pending on a pool and in the log; a repeated request for a resolution is answered by how the
transaction ended and leaves the whole state as it is; a transaction in the log is not executed
again; and the log holds exactly the outcomes after which fewer transactions have been resolved than
it has room for. -/
theorem redelivery_safe (rules : Rules) (accounts : AccountBook) (capacity : Nat)
    (operations : List Operation) (p : Address) (txid : Txid) :
    let start := create rules accounts capacity
    let s := start.reached operations
    (s.isPending p txid = true → s.resolutions.get? p txid = none) ∧
    (∀ pool, s.registry.get? p = some pool →
      (s.status? p txid = some (.resolved .finalized) →
        s.Redelivered txid pool.keys.untweaked (.ok .done) (.error (alreadyFinalized txid))) ∧
      (s.status? p txid = some (.resolved .rolledBack) →
        s.Redelivered txid pool.keys.untweaked (.error .nothingPending) (.ok .done)) ∧
      (s.status? p txid = none →
        s.Redelivered txid pool.keys.untweaked (.error .nothingPending) (.ok .done))) ∧
    (∀ resolution request i confirmed now, s.resolutions.get? p txid = some resolution →
      Txid.parse request.txid = .ok txid → request.set.select request.index = .ok i →
      i.pool = p → ∃ refusal, s.perform (.execute request confirmed now) = (.error refusal, s)) ∧
    (∀ earlier operation later resolution, operations = earlier ++ operation :: later →
      operation.resolution? (start.reached earlier) = some ((p, txid), resolution) →
      let since := ((start.reached (earlier ++ [operation])).resolved later).length
      (since < max 1 capacity → s.resolutions.get? p txid = some resolution) ∧
      (since = max 1 capacity → s.resolutions.get? p txid = none)) ∧
    ∀ resolution, s.resolutions.get? p txid = some resolution →
      ∃ earlier operation later, operations = earlier ++ operation :: later ∧
        operation.resolution? (start.reached earlier) = some ((p, txid), resolution) ∧
        ((start.reached (earlier ++ [operation])).resolved later).length < max 1 capacity := by
  intro start s
  have h := remembers_reached rules accounts capacity operations
  refine ⟨?_, ?_, ?_, ?_, ?_⟩
  · intro hpending
    obtain ⟨slot, hslot, rfl⟩ := isPending_iff.1 hpending
    exact h.apart p slot hslot
  · intro pool hpool
    have hkey := h.keyed p pool hpool
    refine ⟨?_, ?_, ?_⟩
    · intro hstatus
      obtain ⟨hsettled, hlogged⟩ := status?_eq_resolved_iff.1 hstatus
      exact redelivered_of_finalized hkey hsettled hlogged
    · intro hstatus
      obtain ⟨hsettled, hlogged⟩ := status?_eq_resolved_iff.1 hstatus
      exact redelivered_of_uncommitted hkey hsettled (by simp [hlogged])
    · intro hstatus
      obtain ⟨hsettled, hlogged⟩ := status?_eq_none_iff.1 hstatus
      exact redelivered_of_uncommitted hkey hsettled (by simp [hlogged])
  · rintro resolution request i confirmed now hlogged htext hselect rfl
    exact execute_of_logged htext hselect hlogged
  · rintro earlier operation later resolution rfl hresolves
    rw [resolved_append, resolved, hresolves, Option.toList_some, List.singleton_append,
      ← reached_concat] at h
    exact ⟨h.get?_of_recent, h.get?_of_outlived⟩
  · intro resolution hlogged
    exact h.exists_recent hlogged

theorem redelivery_safe_sample :
    let s := (create Sample.rules (.create 0#64 0#128) 10).reached (Sample.committing.map .call)
    s.status? "pool" (Sample.txid 2) = some (.resolved .finalized) ∧
      s.perform (.finalize (Sample.txid 2).text "untweaked" 7#64) = (.ok .done, s) ∧
      s.perform (.rollback (Sample.txid 2).text "untweaked") =
        (.error (alreadyFinalized (Sample.txid 2)), s) := by
  intro s
  obtain ⟨hstored, hstatus, htext⟩ :
      (s.registry.get? "pool").map (·.keys.untweaked) = some "untweaked" ∧
      s.status? "pool" (Sample.txid 2) = some (.resolved .finalized) ∧
      Txid.parse (Sample.txid 2).text = .ok (Sample.txid 2) := by decide +kernel
  obtain ⟨pool, hpool, hkey⟩ := Option.map_eq_some_iff.1 hstored
  obtain ⟨-, hanswers, -⟩ := redelivery_safe Sample.rules (.create 0#64 0#128) 10
    (Sample.committing.map .call) "pool" (Sample.txid 2)
  have hrepeated := (hanswers pool hpool).1 hstatus
  rw [hkey] at hrepeated
  exact ⟨hstatus, hrepeated.finalize _ 7#64 htext, hrepeated.rollback _ htext⟩

end RuneSettlement.Settlement
