import RuneSettlement.Proofs.Rollbacks

/-!
# Pools and their keys

The registry keeps the pools by address and, apart from them, the address of every key. An operation
keeps the registry, registers a pool or puts another state of a pool in its place, and a pool keeps
what it was registered with (`Registry.Change`). So both maps stay inverse to each other, and a key
that was handed out for a staged transaction leads to its pool ever after
(`Settlement.registry_identifies`).
-/

namespace RuneSettlement

/-- What a pool is registered with. -/
structure PoolIdentity where
  name : String
  keys : PoolKeys
  token : CoinId
  depositAmount : Amount
  attributes : String
  deriving DecidableEq

namespace Pool

def identity (p : Pool) : PoolIdentity where
  name := p.name
  keys := p.keys
  token := p.token
  depositAmount := p.depositAmount
  attributes := p.attributes

lemma Succeeds.identity_eq {next p : Pool} (h : next.Succeeds p) : next.identity = p.identity := by
  unfold identity
  rw [h.name, h.keys, h.token, h.depositAmount, h.attributes]

lemma identity_of_fund {p next : Pool} {legs : List Utxo} (h : p.fund legs = .ok next) :
    next.identity = p.identity := by
  obtain ⟨_, _, -, -, rfl⟩ := fund_eq_ok_iff.1 h
  rfl

end Pool

namespace Registry

variable {r r' : Registry} {p : Address} {pool : Pool}

/-- Every key that leads to an address is the key of the pool there. -/
def Indexed (r : Registry) : Prop :=
  ∀ key address, r.addressForKey key = .ok address →
    ∃ pool, r.get? address = some pool ∧ pool.keys.untweaked = key

/-- All that an operation can do to the registry. -/
inductive Change (r : Registry) : Registry → Prop
  | kept : Change r r
  | registered {pool : Pool} {next : Registry} (new : r.register pool = .ok next) : Change r next
  | replaced {address : Address} {old next : Pool} (found : r.get? address = some old)
      (same : next.identity = old.identity) :
      Change r { r with pools := r.pools.insert address next }

/-- No pool disappears, and every pool keeps what it was registered with. -/
lemma Change.exists_identity_eq (h : r.Change r') (hpool : r.get? p = some pool) :
    ∃ later, r'.get? p = some later ∧ later.identity = pool.identity := by
  cases h with
  | kept => exact ⟨pool, hpool, rfl⟩
  | @registered new _ hnew =>
    have hfree := (register_eq_ok_iff.1 hnew).1
    refine ⟨pool, ?_, rfl⟩
    rw [get?_of_register hnew, if_neg]
    · exact hpool
    · rintro rfl
      rw [hfree] at hpool
      cases hpool
  | @replaced address old next found same =>
    by_cases hp : address = p
    · subst hp
      have hold : old = pool := Option.some.inj (found.symm.trans hpool)
      refine ⟨next, ?_, ?_⟩
      · rw [get?_insert, if_pos rfl]
      · rw [same, hold]
    · refine ⟨pool, ?_, rfl⟩
      rw [get?_insert, if_neg hp]
      exact hpool

lemma Change.addressForKey (h : r.Change r') {key : String} {address : Address}
    (hkey : r'.addressForKey key = .ok address) :
    r.addressForKey key = .ok address ∨
      ∃ pool, r'.get? address = some pool ∧ pool.keys.untweaked = key := by
  cases h with
  | kept => exact .inl hkey
  | replaced => exact .inl hkey
  | @registered new _ hnew =>
    have hget := get?_of_register hnew new.address
    obtain ⟨-, -, rfl⟩ := register_eq_ok_iff.1 hnew
    unfold Registry.addressForKey at hkey ⊢
    rw [Outcome.ofOption_eq_ok_iff, SortedMap.get?_insert] at hkey
    split at hkey
    · next hsame =>
      obtain rfl : new.address = address := Option.some.inj hkey
      rw [if_pos rfl] at hget
      exact .inr ⟨new, hget, Key.same_iff.1 hsame⟩
    · exact .inl (Outcome.ofOption_eq_ok_iff.2 hkey)

lemma Change.indexed (h : r.Change r') (hr : r.Indexed) : r'.Indexed := by
  intro key address hkey
  rcases h.addressForKey hkey with hold | hnew
  · obtain ⟨pool, hpool, huntweaked⟩ := hr key address hold
    obtain ⟨later, hlater, hsame⟩ := h.exists_identity_eq hpool
    have hkeys : later.keys = pool.keys := congrArg PoolIdentity.keys hsame
    exact ⟨later, hlater, hkeys ▸ huntweaked⟩
  · exact hnew

/-- A key leads to a pool just when it is the pool's key. -/
lemma addressForKey_eq_ok_iff (hkeyed : r.Keyed) (hindexed : r.Indexed) {key : String} :
    r.addressForKey key = .ok p ↔ ∃ pool, r.get? p = some pool ∧ pool.keys.untweaked = key := by
  constructor
  · intro hkey
    exact hindexed key p hkey
  · rintro ⟨pool, hpool, rfl⟩
    exact hkeyed p pool hpool

/-- A key that no pool has is refused. -/
lemma addressForKey_eq_error_iff (hkeyed : r.Keyed) (hindexed : r.Indexed) {key : String} :
    r.addressForKey key = .error .poolNotFound ↔
      ∀ p pool, r.get? p = some pool → pool.keys.untweaked ≠ key := by
  constructor
  · rintro hrefused p pool hpool rfl
    rw [hkeyed p pool hpool] at hrefused
    cases hrefused
  · intro hforeign
    cases hkey : r.addressForKey key with
    | ok p =>
      obtain ⟨pool, hpool, hhas⟩ := hindexed key p hkey
      exact absurd hhas (hforeign p pool hpool)
    | error refusal =>
      have hcause := (Outcome.ofOption_eq_error_iff.1 hkey).2
      rw [hcause]

/-- Two pools of one address or of one key are one pool. -/
lemma eq_of_shared (hfiled : r.Filed) (hkeyed : r.Keyed) {q : Address} {other : Pool}
    (hpool : r.get? p = some pool) (hother : r.get? q = some other)
    (hshared : pool.address = other.address ∨ pool.keys.untweaked = other.keys.untweaked) :
    p = q ∧ pool = other := by
  have hpq : p = q := by
    rcases hshared with haddress | hkey
    · rw [← hfiled p pool hpool, haddress, hfiled q other hother]
    · have hp := hkeyed p pool hpool
      rw [hkey, hkeyed q other hother] at hp
      exact (Except.ok.inj hp).symm
  subst hpq
  exact ⟨rfl, Option.some.inj (hpool.symm.trans hother)⟩

end Registry

namespace Settlement

variable {s s' : Settlement} {call : Call} {answer : Outcome Receipt} {p : Address} {pool : Pool}

lemma Moves.change (h : Moves s call answer s') (hs : s.Consistent) :
    s.registry.Change s'.registry := by
  cases h with
  | registered new => exact .registered new
  | funded _ admitted | unrecorded _ admitted =>
    obtain ⟨_, _, hfound, -, -, -, hfund, rfl⟩ := Registry.deposit_eq_ok_iff.1 admitted
    exact .replaced hfound (Pool.identity_of_fund hfund)
  | committed _ _ pending _ _ next _ =>
    obtain ⟨_, -, -, -, rfl⟩ := Registry.commit_eq_ok_iff.1 next
    obtain ⟨pool, hpool, hsucceeds⟩ := hs.exists_succeeds pending
    rw [← hs.staged_address pending] at hpool
    exact .replaced hpool hsucceeds.identity_eq
  | _ => exact .kept

lemma change_operate (hs : s.Consistent) (operation : Operation) :
    s.registry.Change (s.operate operation).2.registry := by
  cases operation with
  | call call => exact (moves_perform s call).change hs
  | register pool =>
    rw [operate_register]
    cases hregister : s.registry.register pool with
    | error refusal => exact .kept
    | ok registry => exact .registered hregister
  | setAccounts accounts => exact .kept

lemma consistent_reached (hs : s.Consistent) (operations : List Operation) :
    (s.reached operations).Consistent := by
  induction operations using List.reverseRecOn with
  | nil => exact hs
  | append_singleton operations operation ih =>
    rw [reached_concat]
    exact ih.operate operation

lemma indexed_reached (rules : Rules) (accounts : AccountBook) (capacity : Nat)
    (operations : List Operation) :
    ((create rules accounts capacity).reached operations).registry.Indexed := by
  induction operations using List.reverseRecOn with
  | nil =>
    intro key address hkey
    cases hkey
  | append_singleton operations operation ih =>
    have hconsistent :=
      consistent_reached (consistent_create rules accounts capacity) operations
    rw [reached_concat]
    exact (change_operate hconsistent operation).indexed ih

/-- A pool is there after any operations, with what it was registered with. -/
theorem exists_identity_eq_reached (hs : s.Consistent) (hpool : s.registry.get? p = some pool)
    (later : List Operation) :
    ∃ kept, (s.reached later).registry.get? p = some kept ∧ kept.identity = pool.identity := by
  induction later using List.reverseRecOn with
  | nil => exact ⟨pool, hpool, rfl⟩
  | append_singleton later operation ih =>
    obtain ⟨kept, hkept, hsame⟩ := ih
    have hchange := change_operate (consistent_reached hs later) operation
    obtain ⟨last, hlast, hlasting⟩ := hchange.exists_identity_eq hkept
    rw [reached_concat]
    exact ⟨last, hlast, hlasting.trans hsame⟩

lemma get?_of_register_accepted (haccepted : (s.operate (.register pool)).1 = .ok .done) :
    (s.operate (.register pool)).2.registry.get? pool.address = some pool := by
  rw [operate_register] at haccepted ⊢
  cases hregister : s.registry.register pool with
  | error refusal =>
    rw [hregister] at haccepted
    cases haccepted
  | ok registry =>
    have hget := Registry.get?_of_register hregister pool.address
    rw [if_pos rfl] at hget
    exact hget

/-- Where a staged transaction is for, its key is that of the pool there. -/
lemma exists_pool_of_staged {request : ExecuteRequest} {confirmed : List CoinId} {now : Timestamp}
    {staged : StagedExecution} (hfiled : s.registry.Filed)
    (hstaged : (s.perform (.execute request confirmed now)).1 = .ok (.staged staged)) :
    ∃ pool, s.registry.get? staged.pool = some pool ∧ staged.poolKey = pool.keys.untweaked := by
  obtain ⟨prepared, hchecked, -, rfl, -⟩ := exists_prepared (Prod.ext hstaged rfl)
  obtain ⟨pool, hpool, hkeys⟩ := exists_pool_of_prepare hfiled hchecked
  exact ⟨pool, hpool, congrArg PoolKeys.untweaked hkeys⟩

/-- What the registry identifies pools by. In every state that a run of operations reaches, every
pool is filed under its own address, two pools share neither address nor key, and a key leads to
the pool that has it and to no other. A pool that is registered stays, with what it was registered
with, whatever happens later; and the key that comes with a staged transaction leads to the pool of
the transaction from then on. -/
theorem registry_identifies (rules : Rules) (accounts : AccountBook) (capacity : Nat)
    (operations : List Operation) :
    let s := (create rules accounts capacity).reached operations
    (∀ p pool, s.registry.get? p = some pool → pool.address = p) ∧
    (∀ p q pool other, s.registry.get? p = some pool → s.registry.get? q = some other →
      pool.address = other.address ∨ pool.keys.untweaked = other.keys.untweaked →
      p = q ∧ pool = other) ∧
    (∀ key p, s.registry.addressForKey key = .ok p ↔
      ∃ pool, s.registry.get? p = some pool ∧ pool.keys.untweaked = key) ∧
    (∀ key, s.registry.addressForKey key = .error .poolNotFound ↔
      ∀ p pool, s.registry.get? p = some pool → pool.keys.untweaked ≠ key) ∧
    (∀ p pool later, s.registry.get? p = some pool →
      ∃ kept, (s.reached later).registry.get? p = some kept ∧ kept.identity = pool.identity) ∧
    (∀ pool later, (s.operate (.register pool)).1 = .ok .done →
      ∃ kept, (s.reached (.register pool :: later)).registry.get? pool.address = some kept ∧
        kept.identity = pool.identity) ∧
    ∀ request confirmed now staged later,
      (s.perform (.execute request confirmed now)).1 = .ok (.staged staged) →
      ∃ pool kept, s.registry.get? staged.pool = some pool ∧
        staged.poolKey = pool.keys.untweaked ∧
        (s.reached (.call (.execute request confirmed now) :: later)).registry.addressForKey
          staged.poolKey = .ok staged.pool ∧
        (s.reached (.call (.execute request confirmed now) :: later)).registry.get? staged.pool =
          some kept ∧
        kept.identity = pool.identity := by
  intro s
  have hremembers := remembers_reached rules accounts capacity operations
  have hconsistent : s.Consistent := hremembers.consistent
  have hkeyed : s.registry.Keyed := hremembers.keyed
  have hindexed : s.registry.Indexed := indexed_reached rules accounts capacity operations
  refine ⟨hconsistent.filed, ?_, ?_, ?_, ?_, ?_, ?_⟩
  · intro p q pool other hpool hother hshared
    exact Registry.eq_of_shared hconsistent.filed hkeyed hpool hother hshared
  · intro key p
    exact Registry.addressForKey_eq_ok_iff hkeyed hindexed
  · intro key
    exact Registry.addressForKey_eq_error_iff hkeyed hindexed
  · intro p pool later hpool
    exact exists_identity_eq_reached hconsistent hpool later
  · intro pool later haccepted
    have hpool := get?_of_register_accepted haccepted
    exact exists_identity_eq_reached (hconsistent.operate (.register pool)) hpool later
  · intro request confirmed now staged later hstaged
    obtain ⟨pool, hpool, hkey⟩ := exists_pool_of_staged hconsistent.filed hstaged
    obtain ⟨kept, hkept, hsame⟩ := exists_identity_eq_reached hconsistent hpool
      (.call (.execute request confirmed now) :: later)
    have hlater := remembers_reached rules accounts capacity
      (operations ++ .call (.execute request confirmed now) :: later)
    rw [reached_append] at hlater
    have hkeys : kept.keys = pool.keys := congrArg PoolIdentity.keys hsame
    refine ⟨pool, kept, hpool, hkey, ?_, hkept, hsame⟩
    rw [hkey, ← hkeys]
    exact hlater.keyed staged.pool kept hkept

namespace Sample

/-- Registrations that clash with the pool in its address or its key, and the commit of the swap. -/
def clashing : List Operation :=
  [.call (.registerPool "same address" ⟨"other", "other", [], "pool"⟩ token 1#128 ""),
    .call (.registerPool "same key" ⟨"untweaked", "other", [], "other"⟩ token 1#128 ""),
    .call (.finalize (txid 2).text "untweaked" 1#64)]

end Sample

theorem registry_identifies_sample :
    let s := (create Sample.rules (.create 0#64 0#128) 10).reached Sample.funded
    let execution := Call.execute (Sample.swapping 2) [] 0#64
    let committed := s.reached (.call execution :: Sample.clashing)
    ∃ pool kept, s.registry.get? "pool" = some pool ∧ committed.registry.get? "pool" = some kept ∧
      kept.identity = pool.identity ∧ kept ≠ pool ∧
      committed.registry.addressForKey "untweaked" = .ok "pool" := by
  intro s execution committed
  obtain ⟨hstaged, hmoved⟩ :
      (s.perform execution).1 = .ok (.staged (Sample.execution 2)) ∧
      (s.registry.get? "pool").map Pool.nonce ≠
        (committed.registry.get? "pool").map Pool.nonce := by
    decide +kernel
  obtain ⟨-, -, -, -, -, -, hstaging⟩ :=
    registry_identifies Sample.rules (.create 0#64 0#128) 10 Sample.funded
  obtain ⟨pool, kept, hpool, hkey, hleads, hkept, hsame⟩ :=
    hstaging _ _ _ _ Sample.clashing hstaged
  refine ⟨pool, kept, hpool, hkept, hsame, ?_, hleads⟩
  rintro rfl
  change s.registry.get? "pool" = some kept at hpool
  change committed.registry.get? "pool" = some kept at hkept
  rw [hpool, hkept] at hmoved
  exact hmoved rfl

end Settlement

end RuneSettlement
