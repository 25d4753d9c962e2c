import Mathlib.Data.List.Nodup
import RuneSettlement.Proofs.BoundedLog
import RuneSettlement.Proofs.PendingAgreement

/-!
# What a run remembers of its resolutions

An operation is a call, the registration of a pool in whatever state, or any change of the account
book. After every run of operations the log holds exactly the last resolutions of the run, as many
as it has room for, and no transaction that is pending on a pool is in the log
(`Settlement.remembers_reached`). So an outcome stays until enough further transactions are
resolved.
-/

namespace RuneSettlement

/-- The key of every committed pool leads to the pool's address. -/
def Registry.Keyed (r : Registry) : Prop :=
  ∀ address pool, r.get? address = some pool → r.addressForKey pool.keys.untweaked = .ok address

namespace Registry.Keyed

variable {r r' : Registry}

lemma register {pool : Pool} (hr : r.Keyed) (h : r.register pool = .ok r') : r'.Keyed := by
  intro address found hget
  rw [get?_of_register h] at hget
  obtain ⟨-, hfree, rfl⟩ := register_eq_ok_iff.1 h
  rw [addressForKey, Outcome.ofOption_eq_ok_iff, SortedMap.get?_insert]
  by_cases heq : pool.address = address
  · rw [if_pos heq] at hget
    cases hget
    rw [if_pos (Key.same_iff.2 rfl), heq]
  · rw [if_neg heq] at hget
    have hold := Outcome.ofOption_eq_ok_iff.1 (hr address found hget)
    rw [if_neg, hold]
    -- The new key was free, so it is not the key of a pool that is there.
    intro hsame
    rw [← Key.same_iff.1 hsame, hfree] at hold
    cases hold

lemma replace {address : Address} {old pool : Pool} (hr : r.Keyed)
    (hold : r.get? address = some old) (hkeys : pool.keys = old.keys) :
    Registry.Keyed { r with pools := r.pools.insert address pool } := by
  intro other found hget
  rw [get?_insert] at hget
  split at hget
  · next heq =>
    cases hget
    rw [hkeys, ← heq]
    exact hr address old hold
  · exact hr other found hget

lemma deposit {address : Address} {legA legB : Utxo} (hr : r.Keyed)
    (h : r.deposit address legA legB = .ok r') : r'.Keyed := by
  obtain ⟨pool, funded, hpool, -, -, -, hfund, rfl⟩ := deposit_eq_ok_iff.1 h
  obtain ⟨_, _, -, -, rfl⟩ := Pool.fund_eq_ok_iff.1 hfund
  exact hr.replace hpool rfl

end Registry.Keyed

namespace Settlement

open ResolutionLog (Entry)

variable {s s' : Settlement} {call : Call} {answer : Outcome Receipt}

/-- What a pending transaction stages is the successor of the committed pool. -/
lemma Consistent.exists_succeeds {address : Address} {slot : PendingTransaction}
    (hs : s.Consistent) (hslot : s.pendingOn? address = some slot) :
    ∃ pool, s.registry.get? address = some pool ∧ slot.staged.Succeeds pool := by
  obtain ⟨plan, i, pool, _, hbasis, hholds, rfl⟩ := hs.exists_basis hslot
  refine ⟨pool, hbasis.committed, ?_⟩
  rw [hholds.staged]
  exact Pool.succeeds_of_stage hbasis.staged

lemma Consistent.staged_address {address : Address} {slot : PendingTransaction}
    (hs : s.Consistent) (hslot : s.pendingOn? address = some slot) :
    slot.staged.address = address := by
  obtain ⟨_, hreplan⟩ := hs.slots address slot hslot
  exact hreplan.staged

/-- No call changes where a key leads, and every new pool has its own. -/
lemma Moves.keyed (h : Moves s call answer s') (hs : s.Consistent) (hkeyed : s.registry.Keyed) :
    s'.registry.Keyed := by
  cases h with
  | registered new => exact hkeyed.register new
  | funded _ admitted | unrecorded _ admitted => exact hkeyed.deposit admitted
  | committed _ _ pending _ _ next _ =>
    obtain ⟨_, -, -, -, rfl⟩ := Registry.commit_eq_ok_iff.1 next
    obtain ⟨pool, hpool, hsucceeds⟩ := hs.exists_succeeds pending
    rw [← hs.staged_address pending] at hpool
    exact hkeyed.replace hpool hsucceeds.keys
  | _ => exact hkeyed

/-- Anything that the holder of a settlement state can do to it. -/
inductive Operation
  | call (call : Call)
  /-- The registration of a pool in any state, not only of a new one. -/
  | register (pool : Pool)
  /-- Any change of the account book, which its holder may write to. -/
  | setAccounts (accounts : AccountBook)

def operate (s : Settlement) : Operation → Outcome Receipt × Settlement
  | .call call => s.perform call
  | .register pool =>
    (do Settlement.registerPool pool; return .done : SettlementM Receipt).run.run s
  | .setAccounts accounts => (.ok .done, { s with accounts })

/-- The state after a run of operations. -/
def reached (s : Settlement) (operations : List Operation) : Settlement :=
  operations.foldl (fun s operation => (s.operate operation).2) s

lemma reached_append (s : Settlement) (operations later : List Operation) :
    s.reached (operations ++ later) = (s.reached operations).reached later := by
  rw [reached, List.foldl_append]
  rfl

lemma reached_concat (s : Settlement) (operations : List Operation) (operation : Operation) :
    s.reached (operations ++ [operation]) = ((s.reached operations).operate operation).2 :=
  s.reached_append operations [operation]

lemma operate_register (s : Settlement) (pool : Pool) :
    s.operate (.register pool) =
      match s.registry.register pool with
      | .ok registry => (.ok .done, { s with registry })
      | .error refusal => (.error refusal, s) := by
  simp only [operate, Settlement.registerPool, run_bind, run_get, run_ofOutcome, run_set, run_pure]
  cases s.registry.register pool <;> rfl

/-- The pending transaction that a request for its resolution names. -/
def named? (s : Settlement) (txid poolKey : String) : Option (Address × Txid) :=
  match Txid.parse txid, s.registry.addressForKey poolKey with
  | .ok id, .ok pool => if s.isPending pool id then some (pool, id) else none
  | _, _ => none

/-- The transaction that a step has resolved, and how. -/
def Step.resolution? (step : Step) : Option Entry :=
  match step.call, step.answer with
  | .finalize txid poolKey _, .ok _ =>
    (step.before.named? txid poolKey).map fun key => (key, .finalized)
  | .rollback txid poolKey, .ok _ =>
    (step.before.named? txid poolKey).map fun key => (key, .rolledBack)
  | _, _ => none

def Operation.resolution? (s : Settlement) : Operation → Option Entry
  | .call call => Step.resolution? ⟨s, call, (s.perform call).1⟩
  | _ => none

/-- The resolutions of a run, the first one first. -/
def resolved (s : Settlement) : List Operation → List Entry
  | [] => []
  | operation :: operations =>
    (operation.resolution? s).toList ++ (s.operate operation).2.resolved operations

lemma resolved_append (s : Settlement) (operations later : List Operation) :
    s.resolved (operations ++ later) =
      s.resolved operations ++ (s.reached operations).resolved later := by
  induction operations generalizing s with
  | nil => rfl
  | cons operation operations ih =>
    rw [List.cons_append, resolved, ih, resolved, List.append_assoc]
    rfl

lemma resolved_concat (s : Settlement) (operations : List Operation) (operation : Operation) :
    s.resolved (operations ++ [operation]) =
      s.resolved operations ++ (operation.resolution? (s.reached operations)).toList := by
  rw [resolved_append, resolved, resolved, List.append_nil]

/-- All that an operation can do to the pending slots and to the log, with what it resolves. -/
inductive SlotMove (s s' : Settlement) : Option Entry → Prop
  | kept (pending : s'.pending = s.pending) (log : s'.resolutions = s.resolutions) :
      SlotMove s s' none
  | filled {pool : Address} (slot : PendingTransaction) (idle : s.pendingOn? pool = none)
      (fresh : s.resolutions.get? pool slot.txid = none)
      (pending : s'.pending = s.pending.insert pool slot) (log : s'.resolutions = s.resolutions) :
      SlotMove s s' none
  | emptied {pool : Address} {slot : PendingTransaction} {resolution : Resolution}
      (full : s.pendingOn? pool = some slot) (pending : s'.pending = s.pending.erase pool)
      (log : s'.resolutions = s.resolutions.record (pool, slot.txid) resolution) :
      SlotMove s s' (some ((pool, slot.txid), resolution))

lemma named?_eq_some {txid poolKey : String} {pool : Address} {slot : PendingTransaction}
    (hnamed : Txid.parse txid = .ok slot.txid)
    (hkeyed : s.registry.addressForKey poolKey = .ok pool)
    (hslot : s.pendingOn? pool = some slot) :
    s.named? txid poolKey = some (pool, slot.txid) := by
  have hpending : s.isPending pool slot.txid = true := isPending_iff.2 ⟨slot, hslot, rfl⟩
  simp only [named?, hnamed, hkeyed, hpending, if_true]

lemma named?_eq_none {txid poolKey : String} {pool : Address} {id : Txid}
    (hnamed : Txid.parse txid = .ok id) (hkeyed : s.registry.addressForKey poolKey = .ok pool)
    (hsettled : s.isPending pool id = false) : s.named? txid poolKey = none := by
  simp only [named?, hnamed, hkeyed, hsettled, Bool.false_eq_true, if_false]

/-- Every move of the state is a move of its slots. -/
theorem Moves.slotMove (h : Moves s call answer s') (hfiled : s.registry.Filed) :
    SlotMove s s' (Step.resolution? ⟨s, call, answer⟩) := by
  cases h with
  | refused => cases call <;> exact .kept rfl rfl
  | @staged request confirmed now prepared checked known =>
    obtain ⟨i, pool, post, hbasis, hidle, hfresh, -⟩ := exists_basis_of_prepare checked
    have haddress := address_of_basis hfiled hbasis
    rw [← haddress] at hidle hfresh
    exact .filled (prepared.pendingTransaction request now) hidle hfresh rfl rfl
  | committed named keyed pending =>
    simp only [Step.resolution?, named?_eq_some named keyed pending, Option.map_some]
    exact .emptied pending rfl rfl
  | dropped named keyed pending =>
    simp only [Step.resolution?, named?_eq_some named keyed pending, Option.map_some]
    exact .emptied pending rfl rfl
  | recommitted named keyed settled =>
    simp only [Step.resolution?, named?_eq_none named keyed settled, Option.map_none]
    exact .kept rfl rfl
  | redropped named keyed settled =>
    simp only [Step.resolution?, named?_eq_none named keyed settled, Option.map_none]
    exact .kept rfl rfl
  | _ => exact .kept rfl rfl

/-- The registration of a pool leaves a consistent state consistent, whatever the pool. -/
lemma Consistent.register {pool : Pool} {registry : Registry} (hs : s.Consistent)
    (h : s.registry.register pool = .ok registry) : Consistent { s with registry } where
  filed := hs.filed.register h
  slots := by
    intro address slot hslot
    obtain ⟨queueLength, hreplan⟩ := hs.slots address slot hslot
    exact ⟨queueLength, hreplan.frame hs.filed rfl (hs.get?_of_register h hslot)⟩

lemma Consistent.setAccounts (hs : s.Consistent) (accounts : AccountBook) :
    Consistent { s with accounts } where
  filed := hs.filed
  slots := by
    intro address slot hslot
    obtain ⟨queueLength, hreplan⟩ := hs.slots address slot hslot
    exact ⟨queueLength, hreplan.frame hs.filed rfl rfl⟩

lemma Consistent.operate (hs : s.Consistent) (operation : Operation) :
    (s.operate operation).2.Consistent := by
  cases operation with
  | call call => exact hs.move (moves_perform s call)
  | register pool =>
    rw [operate_register]
    cases hregister : s.registry.register pool with
    | error refusal => exact hs
    | ok registry => exact hs.register hregister
  | setAccounts accounts => exact hs.setAccounts accounts

/-- Every operation is a move of the slots. -/
lemma slotMove_operate (hs : s.Consistent) (operation : Operation) :
    SlotMove s (s.operate operation).2 (operation.resolution? s) := by
  cases operation with
  | call call => exact (moves_perform s call).slotMove hs.filed
  | register pool =>
    rw [operate_register]
    cases s.registry.register pool <;> exact .kept rfl rfl
  | setAccounts accounts => exact .kept rfl rfl

/-- The last resolutions of a run are in the log, each transaction once, and no transaction of them
is pending. -/
structure Remembers (s : Settlement) (room : Nat) (history : List Entry) : Prop where
  consistent : s.Consistent
  keyed : s.registry.Keyed
  capacity : s.resolutions.capacity = room
  log : s.resolutions.Lists (history.rtake room)
  apart : ∀ address slot, s.pendingOn? address = some slot →
    s.resolutions.get? address slot.txid = none
  distinct : ((history.rtake (room + 1)).map Prod.fst).Nodup

variable {room : Nat} {history : List Entry}

lemma Remembers.step {resolved? : Option Entry} (h : s.Remembers room history) (hroom : 0 < room)
    (hmove : SlotMove s s' resolved?) (hconsistent : s'.Consistent) (hkeyed : s'.registry.Keyed) :
    s'.Remembers room (history ++ resolved?.toList) := by
  cases hmove with
  | kept pending log =>
    rw [Option.toList_none, List.append_nil]
    refine ⟨hconsistent, hkeyed, log ▸ h.capacity, log ▸ h.log, ?_, h.distinct⟩
    intro address slot hslot
    rw [pendingOn?, pending] at hslot
    rw [log]
    exact h.apart address slot hslot
  | filled slot idle fresh pending log =>
    rw [Option.toList_none, List.append_nil]
    refine ⟨hconsistent, hkeyed, log ▸ h.capacity, log ▸ h.log, ?_, h.distinct⟩
    intro address found hslot
    rw [pendingOn?, pending, SortedMap.get?_insert] at hslot
    rw [log]
    split at hslot
    · next hsame =>
      cases hslot
      rw [← Key.same_iff.1 hsame]
      exact fresh
    · exact h.apart address found hslot
  | @emptied pool slot resolution full pending log =>
    have hfresh := h.apart pool slot full
    have hcapacity : (s.resolutions.record (pool, slot.txid) resolution).capacity = room := by
      rw [ResolutionLog.record_capacity, h.capacity]
    have hlog := h.log.record resolution (h.capacity ▸ hroom) hfresh
    rw [h.capacity, rtake_append_rtake] at hlog
    rw [Option.toList_some]
    refine ⟨hconsistent, hkeyed, log ▸ hcapacity, log ▸ hlog, ?_, ?_⟩
    · intro address found hslot
      rw [pendingOn?, pending, SortedMap.get?_erase] at hslot
      split at hslot
      · cases hslot
      · next hother =>
        have hothers := h.log.get?_eq_none_iff.1 (h.apart address found hslot)
        rw [log, hlog.get?_eq_none_iff]
        intro hmem
        obtain ⟨entry, hentry, hkey⟩ := List.mem_map.1 hmem
        rw [← rtake_append_rtake] at hentry
        rcases List.mem_append.1 (List.mem_of_mem_drop hentry) with hold | hnew
        · exact hothers (hkey ▸ List.mem_map_of_mem hold)
        · rw [List.mem_singleton.1 hnew] at hkey
          exact hother (Key.same_iff.2 (congrArg Prod.fst hkey))
    · have hnew := h.log.get?_eq_none_iff.1 hfresh
      rw [List.rtake_concat_succ, List.map_append, List.nodup_append]
      refine ⟨h.log.nodup, List.nodup_singleton _, ?_⟩
      intro key hkey other hother heq
      rw [heq, List.mem_singleton.1 hother] at hkey
      exact hnew hkey

/-- One operation keeps what is remembered and adds what it resolves. -/
theorem Remembers.operate (h : s.Remembers room history) (hroom : 0 < room)
    (operation : Operation) :
    (s.operate operation).2.Remembers room
      (history ++ (operation.resolution? s).toList) := by
  apply h.step hroom (slotMove_operate h.consistent operation)
  · exact h.consistent.operate operation
  · cases operation with
    | call call => exact (moves_perform s call).keyed h.consistent h.keyed
    | register pool =>
      rw [operate_register]
      cases hregister : s.registry.register pool with
      | error refusal => exact h.keyed
      | ok registry => exact h.keyed.register hregister
    | setAccounts accounts => exact h.keyed

lemma remembers_create (rules : Rules) (accounts : AccountBook) (capacity : Nat) :
    (create rules accounts capacity).Remembers (max 1 capacity) [] where
  consistent := consistent_create rules accounts capacity
  keyed := by
    intro address pool hpool
    simp [create] at hpool
  capacity := rfl
  log := by
    rw [List.rtake_nil]
    exact ResolutionLog.lists_create capacity
  apart := by
    intro address slot hslot
    simp [create, pendingOn?] at hslot
  distinct := by
    rw [List.rtake_nil]
    exact List.nodup_nil

/-- The log of a run holds its last resolutions, as many as there is room for. -/
theorem remembers_reached (rules : Rules) (accounts : AccountBook) (capacity : Nat)
    (operations : List Operation) :
    ((create rules accounts capacity).reached operations).Remembers (max 1 capacity)
      ((create rules accounts capacity).resolved operations) := by
  induction operations using List.reverseRecOn with
  | nil => exact remembers_create rules accounts capacity
  | append_singleton operations operation ih =>
    rw [reached_concat, resolved_concat]
    exact ih.operate (Nat.lt_of_lt_of_le Nat.one_pos (Nat.le_max_left 1 capacity)) operation

/-- An outcome stays in the log while fewer transactions have been resolved since than there is room
for. -/
lemma Remembers.get?_of_recent {earlier later : List Entry} {pool : Address} {txid : Txid}
    {resolution : Resolution}
    (h : s.Remembers room (earlier ++ ((pool, txid), resolution) :: later))
    (hrecent : later.length < room) : s.resolutions.get? pool txid = some resolution := by
  rw [h.log.get?_eq_some_iff]
  exact mem_rtake_of_lt earlier _ hrecent

/-- It has gone when as many have been resolved since. -/
lemma Remembers.get?_of_outlived {earlier later : List Entry} {pool : Address} {txid : Txid}
    {resolution : Resolution}
    (h : s.Remembers room (earlier ++ ((pool, txid), resolution) :: later))
    (houtlived : later.length = room) : s.resolutions.get? pool txid = none := by
  have hlog : (earlier ++ ((pool, txid), resolution) :: later).rtake room = later := by
    rw [List.append_cons]
    exact rtake_append_of_eq houtlived
  have hdistinct := h.distinct
  rw [rtake_append_of_eq (by rw [List.length_cons, houtlived]), List.map_cons,
    List.nodup_cons] at hdistinct
  rw [h.log.get?_eq_none_iff, hlog]
  exact hdistinct.1

end Settlement

end RuneSettlement
