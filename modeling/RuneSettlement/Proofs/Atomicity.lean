import RuneSettlement.Proofs.Conservation
import RuneSettlement.Proofs.Resolutions

/-!
# Refused calls

What a call has written before it is refused stays written, so a refused call leaves the state as it
was only if nothing after its first write can be refused. That is so for every operation but a
deposit (`Settlement.refused_unchanged`): a commit records the flows that it has checked before. A
deposit funds the pool first, and where the flow does not fit the book, the pool keeps it
(`Settlement.deposit_unchanged_unless_overflows`).
-/

namespace RuneSettlement

lemma Pool.isFunded_of_fund {p next : Pool} {leg : Utxo} {legs : List Utxo}
    (h : p.fund (leg :: legs) = .ok next) : next.isFunded = true := by
  obtain ⟨utxos, reserves, hreceive, -, rfl⟩ := fund_eq_ok_iff.1 h
  rw [isFunded, Bool.not_eq_true', Bool.eq_false_iff]
  intro hempty
  have hperm := UtxoSet.toList_perm_of_receive hreceive
  rw [UtxoSet.toList_of_isEmpty hempty] at hperm
  cases hperm.nil_eq

/-- A pool that a deposit has been admitted on: it owned nothing and now has what the legs hold. -/
lemma Registry.exists_funded_of_deposit {r r' : Registry} {p : Address} {legA legB : Utxo}
    (h : r.deposit p legA legB = .ok r') :
    ∃ pool funded, r.get? p = some pool ∧ pool.isFunded = false ∧
      r'.get? p = some funded ∧ funded.isFunded = true ∧ funded.reserves.Canonical ∧
      ∀ id, (funded.reserves.amountOf id).toNat = Coin.total (legA.coins ++ legB.coins) id := by
  obtain ⟨pool, funded, hpool, hunfunded, -, -, hfund, rfl⟩ := deposit_eq_ok_iff.1 h
  obtain ⟨utxos, reserves, -, hreserves, hfunded⟩ := Pool.fund_eq_ok_iff.1 hfund
  have hcanonical : funded.reserves.Canonical := by
    rw [hfunded]
    exact UtxoSet.canonical_of_reserves hreserves
  refine ⟨pool, funded, hpool, hunfunded, ?_, Pool.isFunded_of_fund hfund, hcanonical, ?_⟩
  · rw [get?_insert, if_pos rfl]
  · intro id
    rw [Pool.toNat_amountOf_fund hunfunded hfund]
    simp

namespace FlowBook

variable {b : FlowBook} {p : Address} {inflow : Reserves}

/-- An inflow can be recorded just when all that has ever flowed in leaves room for it. -/
lemma exists_record_eq_ok_iff (hin : inflow.Canonical) :
    (∃ b', b.record p inflow .empty = .ok b') ↔
      ∀ id, ((b.flowsOf p).inflow.amountOf id).toNat + (inflow.amountOf id).toNat ≤
        Reserves.limit id := by
  rw [← Reserves.exists_merge_eq_ok_iff hin]
  constructor
  · rintro ⟨b', h⟩
    obtain ⟨flows, hadd, -⟩ := record_eq_ok_iff.1 h
    exact ⟨flows.inflow, (Flows.add_eq_ok_iff.1 hadd).1⟩
  · rintro ⟨total, htotal⟩
    have hfits : ∀ id, ((b.flowsOf p).outflow.amountOf id).toNat +
        (Reserves.empty.amountOf id).toNat ≤ Reserves.limit id := by
      intro id
      rw [Reserves.amountOf_empty]
      exact (b.flowsOf p).outflow.toNat_amountOf_le_limit id
    obtain ⟨outflow, hout⟩ := (Reserves.exists_merge_eq_ok_iff Reserves.canonical_empty).2 hfits
    exact ⟨_, record_eq_ok_iff.2 ⟨⟨total, outflow⟩, Flows.add_eq_ok_iff.2 ⟨htotal, hout⟩, rfl⟩⟩

lemma eq_overflow_of_record {refusal : Refusal} (hin : inflow.Canonical)
    (h : b.record p inflow .empty = .error refusal) : refusal = .overflow :=
  Flows.eq_overflow_of_add hin Reserves.canonical_empty (record_eq_error_iff.1 h)

end FlowBook

namespace Settlement

variable {s s' : Settlement} {call : Call} {refusal : Refusal} {p : Address}

/-! ### Operations that leave nothing behind -/

lemma Moves.eq_of_refused (h : Moves s call (.error refusal) s')
    (hother : ∀ p legA legB, call ≠ .deposit p legA legB) : s' = s := by
  cases h with
  | refused => rfl
  | unrecorded => exact absurd rfl (hother _ _ _)

lemma eq_of_operate_refused {operation : Operation}
    (hother : ∀ p legA legB, operation ≠ .call (.deposit p legA legB))
    (h : (s.operate operation).1 = .error refusal) : (s.operate operation).2 = s := by
  cases operation with
  | call call =>
    have hmove := moves_perform s call
    change (s.perform call).1 = _ at h
    rw [h] at hmove
    exact hmove.eq_of_refused fun p legA legB hdeposit => hother p legA legB (congrArg _ hdeposit)
  | register pool =>
    rw [operate_register] at h ⊢
    cases hregister : s.registry.register pool with
    | error _ => rfl
    | ok registry =>
      rw [hregister] at h
      cases h
  | setAccounts accounts => cases h

/-- Refused calls are atomic. In every state, an operation other than a deposit that is refused
leaves the whole state as it is. In particular, nothing refuses a commit that has replaced the
committed pool. -/
theorem refused_unchanged (s : Settlement) :
    (∀ operation refusal, (∀ p legA legB, operation ≠ .call (.deposit p legA legB)) →
      (s.operate operation).1 = .error refusal → (s.operate operation).2 = s) ∧
    ∀ p slot now account? registry, s.pendingOn? p = some slot →
      s.flows.check p slot.inflow slot.outflow slot.staged.reserves = .ok () →
      s.accounts.preview slot.effect now = .ok account? →
      s.registry.commit slot.staged = .ok registry →
      ∃ flows, s.flows.record p slot.inflow slot.outflow = .ok flows ∧
        (commitPending p now).run.run s = (.ok (), { s with
          registry
          flows
          accounts := account?.elim s.accounts s.accounts.store
          pending := s.pending.erase p
          resolutions := s.resolutions.record (p, slot.txid) .finalized }) := by
  constructor
  · intro operation refusal hother hrefused
    exact eq_of_operate_refused hother hrefused
  · intro p slot now account? registry hslot hchecked hpreview hreplaced
    exact commitPending_of_replaced hslot hchecked hpreview hreplaced

theorem refused_unchanged_sample :
    let s := (create Sample.rules (.create 0#64 0#128) 10).after Sample.staging
    (s.operate (.call (.finalize (Sample.txid 3).text "untweaked" 0#64))).2 = s ∧
      ∃ slot flows, s.pendingOn? "pool" = some slot ∧
        s.flows.record "pool" slot.inflow slot.outflow = .ok flows := by
  intro s
  obtain ⟨hrefused, hready⟩ :
      (s.operate (.call (.finalize (Sample.txid 3).text "untweaked" 0#64))).1 =
        .error .nothingPending ∧
      (s.pendingOn? "pool").any fun slot => decide
        (s.flows.check "pool" slot.inflow slot.outflow slot.staged.reserves = .ok () ∧
          s.accounts.preview slot.effect 0#64 = .ok none ∧
          (s.registry.commit slot.staged).isOk = true) := by
    decide +kernel
  obtain ⟨slot, hslot, hslotReady⟩ := (Option.any_eq_true _ _).1 hready
  obtain ⟨hchecked, hpreview, hreplaces⟩ := of_decide_eq_true hslotReady
  obtain ⟨hunchanged, hcommits⟩ := refused_unchanged s
  obtain ⟨registry, hreplaced⟩ := Outcome.exists_eq_ok_of_isOk hreplaces
  obtain ⟨flows, hrecorded, -⟩ :=
    hcommits "pool" slot 0#64 none registry hslot hchecked hpreview hreplaced
  have hother : ∀ p legA legB,
      Operation.call (.finalize (Sample.txid 3).text "untweaked" 0#64) ≠
        .call (.deposit p legA legB) := by
    simp
  exact ⟨hunchanged _ _ hother hrefused, slot, flows, hslot, hrecorded⟩

/-! ### Deposits -/

section Deposit

variable {legA legB : Utxo}

/-- A deposit that is admitted although, with its legs, more of an asset will have flowed into the
pool than can be counted. -/
structure DepositOverflows (s : Settlement) (p : Address) (legA legB : Utxo) : Prop where
  idle : s.pendingOn? p = none
  admitted : ∃ registry, s.registry.deposit p legA legB = .ok registry
  beyond : ∃ id, Reserves.limit id < ((s.flows.flowsOf p).inflow.amountOf id).toNat +
    Coin.total (legA.coins ++ legB.coins) id

lemma perform_deposit_of_overflows (h : s.DepositOverflows p legA legB) :
    ∃ registry, s.registry.deposit p legA legB = .ok registry ∧
      s.perform (.deposit p legA legB) = (.error .overflow, { s with registry }) := by
  obtain ⟨hidle, ⟨registry, hadmitted⟩, id, hbeyond⟩ := h
  obtain ⟨_, funded, -, -, hfunded, -, hcanonical, hamounts⟩ :=
    Registry.exists_funded_of_deposit hadmitted
  refine ⟨registry, hadmitted, ?_⟩
  cases hrecorded : s.flows.record p funded.reserves .empty with
  | ok flows =>
    have hfits := (FlowBook.exists_record_eq_ok_iff hcanonical).1 ⟨flows, hrecorded⟩ id
    rw [hamounts] at hfits
    omega
  | error refusal =>
    obtain rfl := FlowBook.eq_overflow_of_record hcanonical hrecorded
    rw [perform_deposit_of_admitted hidle hadmitted hfunded, hrecorded]

/-- A deposit that is refused and leaves something behind overflows. -/
lemma Moves.depositOverflows (h : Moves s (.deposit p legA legB) (.error refusal) s')
    (hchanged : s' ≠ s) : s.DepositOverflows p legA legB := by
  cases h with
  | refused => exact absurd rfl hchanged
  | @unrecorded _ _ _ registry funded _ idle admitted committed beyond =>
    obtain ⟨_, found, -, -, hfound, -, hcanonical, hamounts⟩ :=
      Registry.exists_funded_of_deposit admitted
    obtain rfl : found = funded := Option.some.inj (hfound.symm.trans committed)
    refine ⟨idle, ⟨registry, admitted⟩, ?_⟩
    by_contra hfits
    simp only [not_exists, Nat.not_lt, ← hamounts] at hfits
    obtain ⟨flows, hrecorded⟩ := (FlowBook.exists_record_eq_ok_iff hcanonical).2 hfits
    rw [hrecorded] at beyond
    cases beyond

/-- What flows into a pool first fits, so the first deposit of a pool does not overflow. -/
lemma not_depositOverflows_of_empty (hfirst : (s.flows.flowsOf p).inflow = .empty) :
    ¬s.DepositOverflows p legA legB := by
  rintro ⟨-, ⟨registry, hadmitted⟩, id, hbeyond⟩
  obtain ⟨_, funded, -, -, -, -, -, hamounts⟩ := Registry.exists_funded_of_deposit hadmitted
  have hfits := funded.reserves.toNat_amountOf_le_limit id
  rw [hfirst, Reserves.amountOf_empty, ← hamounts, BitVec.toNat_ofNat, Nat.zero_mod] at hbeyond
  omega

end Deposit

namespace Sample

/-- Half of what a token can be counted to. -/
def half : Coin := ⟨token, 1#128 <<< 127⟩

def rich : Utxo := { legA with rune := some half }

/-- Pays out everything for one unit of the native coin. -/
def draining : Intention where
  exchangeId := "exchange"
  action := "swap"
  parameters := ""
  pool := "pool"
  nonce := 0#64
  spends := [legA.outpoint.text, legB.outpoint.text]
  receives := []
  inputs := [⟨"trader", Coin.native 1#64⟩]
  outputs := [⟨"trader", Coin.native 1001#64⟩, ⟨"trader", half⟩]

/-- A pool is funded with half of the token's range and pays out everything. -/
def drained : List Call :=
  [.registerPool "name" ⟨"untweaked", "tweaked", [], "pool"⟩ token half.value "",
    .deposit "pool" rich legB,
    .execute ⟨"00", (txid 2).text, ⟨"trader", [draining]⟩, 0#32, 0#32⟩ [] 0#64,
    .finalize (txid 2).text "untweaked" 1#64]

end Sample

/-- What a refused deposit leaves behind. In every state a deposit that is refused leaves the whole
state as it is, unless its flow overflows the book. Then, and only then, its pool stays funded with
the legs, and only the flow is missing; the first deposit of a pool is not affected. -/
theorem deposit_unchanged_unless_overflows (s : Settlement) (p : Address) (legA legB : Utxo) :
    let result := s.perform (.deposit p legA legB)
    (∀ refusal, result.1 = .error refusal → ¬s.DepositOverflows p legA legB → result.2 = s) ∧
    (s.DepositOverflows p legA legB → result.1 = .error .overflow ∧
      ∃ registry pool funded, result.2 = { s with registry } ∧
        s.registry.get? p = some pool ∧ pool.isFunded = false ∧
        registry.get? p = some funded ∧ funded.isFunded = true ∧
        (∀ id, (funded.reserves.amountOf id).toNat = Coin.total (legA.coins ++ legB.coins) id) ∧
        ∀ q, q ≠ p → registry.get? q = s.registry.get? q) ∧
    ((s.flows.flowsOf p).inflow = .empty → ¬s.DepositOverflows p legA legB) := by
  intro result
  refine ⟨?_, ?_, not_depositOverflows_of_empty⟩
  · intro refusal hrefused hfits
    have hmove := s.moves_deposit p legA legB
    change Moves s (.deposit p legA legB) result.1 result.2 at hmove
    rw [hrefused] at hmove
    by_contra hchanged
    exact hfits (hmove.depositOverflows hchanged)
  · intro hoverflows
    obtain ⟨registry, hadmitted, hresult⟩ := perform_deposit_of_overflows hoverflows
    obtain ⟨pool, funded, hpool, hunfunded, hstored, hfunded, -, hamounts⟩ :=
      Registry.exists_funded_of_deposit hadmitted
    refine ⟨congrArg Prod.fst hresult, registry, pool, funded, congrArg Prod.snd hresult, hpool,
      hunfunded, hstored, hfunded, hamounts, ?_⟩
    intro q hq
    obtain ⟨_, _, -, -, -, -, -, rfl⟩ := Registry.deposit_eq_ok_iff.1 hadmitted
    rw [Registry.get?_insert, if_neg (Ne.symm hq)]

theorem deposit_unchanged_unless_overflows_sample :
    let s := (create Sample.rules (.create 0#64 0#128) 10).after Sample.drained
    (s.perform (.deposit "pool" Sample.rich Sample.legB)).1 = .error .overflow ∧
      (s.perform (.deposit "pool" Sample.legA Sample.legA)).2 = s := by
  intro s
  obtain ⟨hidle, hadmitted, hbeyond, hrefused, hunadmitted⟩ :
      s.pendingOn? "pool" = none ∧
      (s.registry.deposit "pool" Sample.rich Sample.legB).isOk = true ∧
      Reserves.limit Sample.token < ((s.flows.flowsOf "pool").inflow.amountOf Sample.token).toNat +
        Coin.total (Sample.rich.coins ++ Sample.legB.coins) Sample.token ∧
      (s.perform (.deposit "pool" Sample.legA Sample.legA)).1 =
        .error (.depositMismatch Sample.half.value.toNat.repr "200") ∧
      (s.registry.deposit "pool" Sample.legA Sample.legA).isOk = false := by
    decide +kernel
  have hoverflows : s.DepositOverflows "pool" Sample.rich Sample.legB :=
    ⟨hidle, Outcome.exists_eq_ok_of_isOk hadmitted, Sample.token, hbeyond⟩
  have hfits : ¬s.DepositOverflows "pool" Sample.legA Sample.legA := by
    rintro ⟨-, ⟨registry, hregistry⟩, -⟩
    rw [hregistry] at hunadmitted
    cases hunadmitted
  obtain ⟨-, hkept, -⟩ :=
    deposit_unchanged_unless_overflows s "pool" Sample.rich Sample.legB
  obtain ⟨hunchanged, -, -⟩ :=
    deposit_unchanged_unless_overflows s "pool" Sample.legA Sample.legA
  exact ⟨(hkept hoverflows).1, hunchanged _ hrefused hfits⟩

/-- A pool that was drained is funded again by a deposit that is refused. -/
theorem deposit_kept_although_refused :
    let s := (create Sample.rules (.create 0#64 0#128) 10).after Sample.drained
    let result := s.perform (.deposit "pool" Sample.rich Sample.legB)
    result.1 = .error .overflow ∧ result.2 ≠ s ∧
      (s.registry.get? "pool").map Pool.isFunded = some false ∧
      (result.2.registry.get? "pool").map Pool.isFunded = some true := by
  intro s result
  obtain ⟨hrefused, hbefore, hafter⟩ : result.1 = .error .overflow ∧
      (s.registry.get? "pool").map Pool.isFunded = some false ∧
      (result.2.registry.get? "pool").map Pool.isFunded = some true := by
    decide +kernel
  refine ⟨hrefused, ?_, hbefore, hafter⟩
  intro hunchanged
  rw [hunchanged, hbefore] at hafter
  cases hafter

end Settlement

end RuneSettlement
