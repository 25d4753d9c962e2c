import RuneSettlement.Pool

/-!
# The pool registry

The committed pools by address, and an index from untweaked keys to addresses. No two pools share an
address or a key.
-/

namespace RuneSettlement

structure Registry where
  pools : SortedMap Address Pool
  addresses : SortedMap String Address
  deriving DecidableEq

namespace Registry

def empty : Registry := ⟨.empty, .empty⟩

def register (r : Registry) (pool : Pool) : Outcome Registry :=
  if r.pools.contains pool.address ∨ r.addresses.contains pool.keys.untweaked then
    .error .poolExists
  else
    .ok ⟨r.pools.insert pool.address pool, r.addresses.insert pool.keys.untweaked pool.address⟩

def get? (r : Registry) (address : Address) : Option Pool := r.pools.get? address

def require (r : Registry) (address : Address) : Outcome Pool :=
  Outcome.ofOption .poolNotFound (r.get? address)

def addressForKey (r : Registry) (key : String) : Outcome Address :=
  Outcome.ofOption .poolNotFound (r.addresses.get? key)

def poolInfo? (r : Registry) (address : Address) : Option PoolInfo := (r.get? address).map Pool.info

/-- At most `limit` pools, in address order, from the first beyond `start`. -/
def page (r : Registry) (start : Option Address) (limit : Nat) : List PoolInfo :=
  let entries :=
    match start with
    | some address => r.pools.beyond address
    | none => r.pools.entries
  (entries.take limit).map fun e => e.2.info

/-- The rune that the two legs of a deposit carry between them. -/
def depositedRune (legA legB : Utxo) : Outcome CoinId :=
  match legA.runeId?, legB.runeId? with
  | some a, some b => if a = b then .ok a else .error (.runeMismatch a.text b.text)
  | some a, none => .ok a
  | none, some b => .ok b
  | none, none => .error .invalidInput

/-- Admits the first deposit of a pool, two outputs whose rune coins sum up to exactly what the pool
asks for. -/
def deposit (r : Registry) (address : Address) (legA legB : Utxo) : Outcome Registry := do
  let pool ← r.require address
  if pool.isFunded then .error (.invalidState ("pool " ++ address ++ " already funded"))
  let rune ← depositedRune legA legB
  if rune ≠ pool.token then .error (.runeMismatch pool.token.text rune.text)
  let amount ← Quantity.add legA.runeAmount legB.runeAmount
  if amount ≠ pool.depositAmount then
    .error (.depositMismatch pool.depositAmount.toNat.repr amount.toNat.repr)
  let pool ← pool.fund [legA, legB]
  return { r with pools := r.pools.insert address pool }

/-- Puts a pool with the next nonce and agreeing reserves in the place of the committed one. -/
def commit (r : Registry) (staged : Pool) : Outcome Registry := do
  let current ← r.require staged.address
  if staged.nonce.toNat ≠ current.nonce.toNat + 1 then
    .error (.invalidState ("staged nonce " ++ staged.nonce.toNat.repr ++
      " does not follow committed nonce " ++ current.nonce.toNat.repr))
  staged.checkReserves
  return { r with pools := r.pools.insert staged.address staged }

def size (r : Registry) : Nat := r.pools.size

def isEmpty (r : Registry) : Bool := r.pools.isEmpty

@[simp] theorem get?_empty (address : Address) : empty.get? address = none := rfl

/-- What all entries of a registry satisfy holds of every committed pool. -/
theorem forall_of_all {r : Registry} {P : Pool → Prop} [DecidablePred P]
    (h : (r.pools.entries.all fun e => decide (P e.2)) = true) (p : Address) (pool : Pool)
    (hpool : r.get? p = some pool) : P pool :=
  of_decide_eq_true (List.all_eq_true.1 h _ (SortedMap.get?_eq_some_iff.1 hpool))

theorem register_eq_ok_iff {r r' : Registry} {pool : Pool} :
    r.register pool = .ok r' ↔
      r.get? pool.address = none ∧ r.addresses.get? pool.keys.untweaked = none ∧
        r' = ⟨r.pools.insert pool.address pool,
          r.addresses.insert pool.keys.untweaked pool.address⟩ := by
  unfold register get? SortedMap.contains
  cases hp : r.pools.get? pool.address <;> cases ha : r.addresses.get? pool.keys.untweaked <;>
    simp [eq_comm]

theorem get?_insert (r : Registry) (address other : Address) (pool : Pool) :
    get? { r with pools := r.pools.insert address pool } other =
      if address = other then some pool else r.get? other := by
  by_cases h : address = other <;> simp [get?, h, SortedMap.get?_insert]

theorem get?_of_register {r r' : Registry} {pool : Pool} (h : r.register pool = .ok r')
    (address : Address) :
    r'.get? address = if pool.address = address then some pool else r.get? address := by
  obtain ⟨-, -, rfl⟩ := register_eq_ok_iff.1 h
  exact r.get?_insert pool.address address pool

/-- Some leg carries the rune, and no leg carries another. -/
theorem depositedRune_eq_ok_iff {legA legB : Utxo} {id : CoinId} :
    depositedRune legA legB = .ok id ↔
      (∃ leg ∈ [legA, legB], leg.runeId? = some id) ∧
        ∀ leg ∈ [legA, legB], ∀ other, leg.runeId? = some other → other = id := by
  unfold depositedRune
  cases hA : legA.runeId? with
  | none => cases hB : legB.runeId? <;> simp [hA, hB]
  | some a =>
    cases hB : legB.runeId? with
    | none => simp [hA, hB]
    | some b =>
      by_cases h : a = b
      · simp [hA, hB, h]
      · have hnone : a = id ∨ b = id → a = id → b ≠ id := by
          rintro - rfl
          exact Ne.symm h
        simpa [hA, hB, h] using hnone

theorem deposit_eq_ok_iff {r r' : Registry} {address : Address} {legA legB : Utxo} :
    r.deposit address legA legB = .ok r' ↔
      ∃ pool funded, r.get? address = some pool ∧ pool.isFunded = false ∧
        depositedRune legA legB = .ok pool.token ∧
        Quantity.add legA.runeAmount legB.runeAmount = .ok pool.depositAmount ∧
        pool.fund [legA, legB] = .ok funded ∧
        r' = { r with pools := r.pools.insert address funded } := by
  simp only [deposit, require, Outcome.unless_eq_ok_iff, Outcome.bind_eq_ok_iff,
    Outcome.ofOption_eq_ok_iff, Outcome.pure_eq_ok_iff]
  constructor
  · rintro ⟨pool, hpool, hempty, rune, hrune, htoken, amount, hadd, hamount, funded, hfund, rfl⟩
    obtain rfl := Decidable.not_not.1 htoken
    obtain rfl := Decidable.not_not.1 hamount
    exact ⟨pool, funded, hpool, Bool.eq_false_iff.2 hempty, hrune, hadd, hfund, rfl⟩
  · rintro ⟨pool, funded, hpool, hempty, hrune, hadd, hfund, rfl⟩
    exact ⟨pool, hpool, Bool.eq_false_iff.1 hempty, pool.token, hrune, not_not_intro rfl,
      pool.depositAmount, hadd, not_not_intro rfl, funded, hfund, rfl⟩

theorem exists_get?_of_deposit {r r' : Registry} {address : Address} {legA legB : Utxo}
    (h : r.deposit address legA legB = .ok r') : ∃ funded, r'.get? address = some funded := by
  obtain ⟨_, funded, -, -, -, -, -, rfl⟩ := deposit_eq_ok_iff.1 h
  exact ⟨funded, by rw [get?_insert, if_pos rfl]⟩

theorem commit_eq_ok_iff {r r' : Registry} {staged : Pool} :
    r.commit staged = .ok r' ↔
      ∃ current, r.get? staged.address = some current ∧
        staged.nonce.toNat = current.nonce.toNat + 1 ∧ staged.checkReserves = .ok () ∧
        r' = { r with pools := r.pools.insert staged.address staged } := by
  simp only [commit, require, Outcome.bind_eq_ok_iff, Outcome.ofOption_eq_ok_iff]
  refine exists_congr fun current => and_congr_right fun _ => ?_
  by_cases hn : staged.nonce.toNat = current.nonce.toNat + 1
  · simp [hn, pure, Except.pure, bind, Except.bind]
    cases staged.checkReserves <;> simp [eq_comm]
  · simp [hn, bind, Except.bind]

end Registry

end RuneSettlement
