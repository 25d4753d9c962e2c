import RuneSettlement.UtxoSet

/-!
# Pools

A pool owns outputs under one address. Its reserves are kept beside the outputs they sum up, and
every change of a pool checks that the two agree. The nonce counts the transactions committed.
-/

namespace RuneSettlement

abbrev Address := String

/-- A list of components that names a key below the seed. -/
abbrev DerivationPath := List Bytes

/-- The public keys of a pool, in hexadecimal, where they come from, and the pool's address. -/
structure PoolKeys where
  untweaked : String
  tweaked : String
  path : DerivationPath
  address : Address
  deriving DecidableEq

structure Pool where
  name : String
  keys : PoolKeys
  /-- The token the pool trades against the native coin. -/
  token : CoinId
  /-- The amount of the token that the first deposit must bring. -/
  depositAmount : Amount
  attributes : String
  nonce : Nonce
  reserves : Reserves
  utxos : UtxoSet
  deriving DecidableEq

/-- The public view of a pool. -/
structure PoolInfo where
  key : String
  path : DerivationPath
  name : String
  address : Address
  nonce : Nonce
  coins : List Coin
  sats : Sats
  utxos : List Utxo
  attributes : String
  deriving DecidableEq

namespace Pool

/-- A pool that owns nothing yet. -/
def create (name : String) (keys : PoolKeys) (token : CoinId) (depositAmount : Amount)
    (attributes : String) : Pool :=
  ⟨name, keys, token, depositAmount, attributes, 0#64, .empty, .empty⟩

def address (p : Pool) : Address := p.keys.address

/-- A pool is funded once it owns an output. -/
def isFunded (p : Pool) : Bool := !p.utxos.isEmpty

def info (p : Pool) : PoolInfo where
  key := p.keys.untweaked
  path := p.keys.path
  name := p.name
  address := p.address
  nonce := p.nonce
  coins := p.reserves.tokenCoins
  sats := p.reserves.native
  utxos := p.utxos.toList
  attributes := p.attributes

/-- Whether `b` is to be preferred to `a` as the output that carries the most native value: among
outputs of equal value one without a rune wins, and otherwise the later. -/
def outweighs (b a : Utxo) : Bool :=
  decide (a.sats.toNat < b.sats.toNat) ||
    (decide (a.sats = b.sats) && (b.rune.isNone || a.rune.isSome))

/-- The output with the most native value, if any carries native value. -/
def nativeUtxo? (p : Pool) : Option Utxo :=
  (p.utxos.toList.filter fun u => decide (u.sats ≠ 0#64)).foldl
    (fun best u =>
      match best with
      | some b => if outweighs u b then some u else some b
      | none => some u)
    none

/-- Refuses reserves that are not the sum of the outputs. -/
def checkReserves (p : Pool) : Outcome Unit := do
  let reserves ← p.utxos.reserves
  if reserves = p.reserves then return
  else .error (.invalidState ("pool " ++ p.address ++ " reserves diverge from utxo set"))

/-- Takes in the first outputs. The nonce stays. -/
def fund (p : Pool) (legs : List Utxo) : Outcome Pool := do
  let utxos ← p.utxos.receive legs
  let reserves ← utxos.reserves
  return { p with utxos, reserves }

theorem fund_eq_ok_iff {p p' : Pool} {legs : List Utxo} :
    p.fund legs = .ok p' ↔
      ∃ utxos reserves, p.utxos.receive legs = .ok utxos ∧ utxos.reserves = .ok reserves ∧
        p' = { p with utxos, reserves } := by
  simp only [fund, Outcome.bind_eq_ok_iff, Outcome.pure_eq_ok_iff]
  constructor
  · rintro ⟨utxos, hreceive, reserves, hsum, rfl⟩
    exact ⟨utxos, reserves, hreceive, hsum, rfl⟩
  · rintro ⟨utxos, reserves, hreceive, hsum, rfl⟩
    exact ⟨utxos, hreceive, reserves, hsum, rfl⟩

/-- The pool after one transaction that spends and receives outputs and leaves reserves `post`. -/
def transition (p : Pool) (spends : List OutPoint) (receives : List Utxo) (post : Reserves) :
    Outcome Pool := do
  let (_, rest) ← p.utxos.spend spends
  let utxos ← rest.receive receives
  let nonce ← Quantity.add p.nonce 1#64
  let next := { p with utxos, reserves := post, nonce }
  next.checkReserves
  return next

end Pool

end RuneSettlement
