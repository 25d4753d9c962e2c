import RuneSettlement.Proofs.AccountEffects
import RuneSettlement.Proofs.Conservation
import RuneSettlement.Proofs.SessionLog

/-!
# When a staged transaction can be committed

Of the checks that a commit makes, those of the account effect, of the nonce and of the reserves
always pass. The check of the flows passes exactly when the flows recorded so far balance to the
reserves and the gross inflow, which never shrinks, still fits the width of every asset
(`Session.commit_accepted_iff`). So a pool that has turned over enough of an asset refuses a
transaction that its reserves have room for (`Session.commit_refused_overturned`).
-/

namespace RuneSettlement

/-- What a pending transaction makes of the reserves it was staged on. -/
structure PendingTransaction.Leads (slot : PendingTransaction) (r : Reserves) : Prop where
  inflow : slot.inflow.Canonical
  outflow : slot.outflow.Canonical
  staged : slot.staged.reserves.Canonical
  amounts : ∀ id, (slot.staged.reserves.amountOf id).toNat + (slot.outflow.amountOf id).toNat =
    (r.amountOf id).toNat + (slot.inflow.amountOf id).toNat

namespace Settlement

variable {s s' : Settlement} {p : Address} {call : Call} {answer : Outcome Receipt}
  {legs : List Utxo} {slot : PendingTransaction} {slot? : Option PendingTransaction}

lemma Consistent.leads (hs : s.Consistent) (hslot : s.pendingOn? p = some slot) :
    slot.Leads (s.reservesOn p) := by
  obtain ⟨plan, i, pool, post, hbasis, hholds, rfl⟩ := hs.exists_basis hslot
  obtain ⟨hpost, hcheck⟩ := Pool.reserves_of_stage hbasis.staged
  have hin := Reserves.canonical_empty.creditAll hbasis.inflow
  have hout := Reserves.canonical_empty.creditAll hbasis.outflow
  rw [reservesOn_eq hbasis.committed]
  refine ⟨hholds.inflow ▸ hin, hholds.outflow ▸ hout, ?_, ?_⟩
  · rw [hholds.staged]
    exact UtxoSet.canonical_of_reserves (Pool.checkReserves_eq_ok_iff.1 hcheck)
  · intro id
    rw [hholds.staged, hholds.inflow, hholds.outflow, hpost]
    exact Pool.toNat_amountOf_afterFlows hin hout hbasis.covered id

/-- The flows and the reserves of a pool are canonical, whether or not they balance. -/
structure Booked (s : Settlement) (p : Address) : Prop where
  flows : (s.flows.flowsOf p).Canonical
  reserves : (s.reservesOn p).Canonical

/-- The flows of a pending transaction pass just when what is recorded balances to the reserves and
the gross inflow has room for more. -/
lemma Booked.check_eq_ok_iff (hbooked : s.Booked p) (hleads : slot.Leads (s.reservesOn p)) :
    s.flows.check p slot.inflow slot.outflow slot.staged.reserves = .ok () ↔
      (s.flows.flowsOf p).balance = .ok (s.reservesOn p) ∧
        ∀ id, ((s.flows.flowsOf p).inflow.amountOf id).toNat + (slot.inflow.amountOf id).toNat ≤
          Reserves.limit id := by
  rw [FlowBook.check_eq_ok_iff, Flows.balance_eq_ok_iff hbooked.flows]
  constructor
  · rintro ⟨flows, hadd, hbalance⟩
    have hsums := Flows.toNat_amountOf_add hleads.inflow hleads.outflow hadd
    have hafter := ((Flows.balance_eq_ok_iff (hbooked.flows.add hadd)).1 hbalance).2
    refine ⟨⟨hbooked.reserves, ?_⟩, ?_⟩
    · intro id
      have hid := hafter id
      have hmoved := hleads.amounts id
      rw [(hsums id).1, (hsums id).2] at hid
      omega
    · intro id
      rw [← (hsums id).1]
      exact flows.inflow.toNat_amountOf_le_limit id
  · rintro ⟨⟨-, hbalanced⟩, hfits⟩
    -- What has flowed out is part of what has flowed in, so it fits as well.
    have houtfits : ∀ id, ((s.flows.flowsOf p).outflow.amountOf id).toNat +
        (slot.outflow.amountOf id).toNat ≤ Reserves.limit id := by
      intro id
      have hid := hbalanced id
      have hmoved := hleads.amounts id
      have hfit := hfits id
      omega
    obtain ⟨inflow, hin⟩ := (Reserves.exists_merge_eq_ok_iff hleads.inflow).2 hfits
    obtain ⟨outflow, hout⟩ := (Reserves.exists_merge_eq_ok_iff hleads.outflow).2 houtfits
    have hadd : (s.flows.flowsOf p).add slot.inflow slot.outflow = .ok ⟨inflow, outflow⟩ :=
      Flows.add_eq_ok_iff.2 ⟨hin, hout⟩
    have hsums := Flows.toNat_amountOf_add hleads.inflow hleads.outflow hadd
    refine ⟨_, hadd, ?_⟩
    rw [Flows.balance_eq_ok_iff (hbooked.flows.add hadd)]
    refine ⟨hleads.staged, ?_⟩
    intro id
    have hid := hbalanced id
    have hmoved := hleads.amounts id
    rw [(hsums id).1, (hsums id).2]
    omega

lemma PoolMove.booked (hmove : PoolMove p s s' call answer legs slot?) (hs : s.Consistent)
    (h : s.Booked p) : s'.Booked p := by
  cases hmove with
  | kept stored flows =>
    refine ⟨flows ▸ h.flows, ?_⟩
    rw [reservesOn, stored]
    exact h.reserves
  | registered absent stored flows =>
    refine ⟨flows ▸ h.flows, ?_⟩
    rw [reservesOn_eq stored]
    exact Reserves.canonical_empty
  | funded current unfunded token fund stored recorded =>
    obtain ⟨utxos, reserves, -, hreserves, rfl⟩ := Pool.fund_eq_ok_iff.1 fund
    refine ⟨h.flows.add recorded, ?_⟩
    rw [reservesOn_eq stored]
    exact UtxoSet.canonical_of_reserves hreserves
  | unrecorded current unfunded token fund stored flows beyond =>
    obtain ⟨utxos, reserves, -, hreserves, rfl⟩ := Pool.fund_eq_ok_iff.1 fund
    refine ⟨flows ▸ h.flows, ?_⟩
    rw [reservesOn_eq stored]
    exact UtxoSet.canonical_of_reserves hreserves
  | committed pending stored recorded balanced =>
    refine ⟨h.flows.add recorded, ?_⟩
    rw [reservesOn_eq stored]
    exact (hs.leads pending).staged

lemma booked_after (rules : Rules) (accounts : AccountBook) (capacity : Nat) (calls : List Call)
    (p : Address) : ((create rules accounts capacity).after calls).Booked p := by
  induction calls using List.reverseRecOn with
  | nil => exact ⟨Flows.canonical_empty, Reserves.canonical_empty⟩
  | append_singleton calls call ih =>
    have hs := consistent_after rules accounts capacity calls
    rw [after_concat]
    exact ((moves_perform _ call).poolMove hs p).booked hs ih

/-- The nonce and the outputs of a staged pool are as a commit asks for. -/
lemma Consistent.exists_commit_eq_ok (hs : s.Consistent) (hslot : s.pendingOn? p = some slot) :
    ∃ registry, s.registry.commit slot.staged = .ok registry := by
  obtain ⟨plan, i, pool, post, hbasis, hholds, rfl⟩ := hs.exists_basis hslot
  have hsucceeds := Pool.succeeds_of_stage hbasis.staged
  obtain ⟨-, hcheck⟩ := Pool.reserves_of_stage hbasis.staged
  have haddress := hs.staged_address hslot
  rw [hholds.staged] at haddress ⊢
  refine ⟨_, Registry.commit_eq_ok_iff.2 ⟨pool, ?_, hsucceeds.nonce, hcheck, rfl⟩⟩
  rw [haddress]
  exact hbasis.committed

lemma perform_finalize_of_pending {text poolKey : String} {now : Timestamp}
    (htext : Txid.parse text = .ok slot.txid) (hkey : s.registry.addressForKey poolKey = .ok p)
    (hslot : s.pendingOn? p = some slot) :
    s.perform (.finalize text poolKey now) =
      ((((commitPending p now).run.run s).1.map fun _ => .done),
        ((commitPending p now).run.run s).2) := by
  have hpending : s.isPending p slot.txid = true := isPending_iff.2 ⟨slot, hslot, rfl⟩
  have hrun : (Settlement.finalize text poolKey now).run.run s =
      (commitPending p now).run.run s := by
    simp only [Settlement.finalize, run_bind, run_get, run_ofOutcome, htext, hkey, hpending,
      if_true]
  rw [perform, Call.act, run_map, hrun]

/-- Only the check of the flows can refuse a pending transaction. -/
lemma finalize_accepted_iff {text poolKey : String} (now : Timestamp) (hs : s.Consistent)
    (hstand : s.EffectsStand) (hslot : s.pendingOn? p = some slot)
    (htext : Txid.parse text = .ok slot.txid) (hkey : s.registry.addressForKey poolKey = .ok p) :
    (s.perform (.finalize text poolKey now)).1 = .ok .done ↔
      s.flows.check p slot.inflow slot.outflow slot.staged.reserves = .ok () := by
  rw [perform_finalize_of_pending htext hkey hslot]
  obtain ⟨account?, hpreview⟩ := (hstand.admitted p slot hslot).exists_preview_eq_ok now
  obtain ⟨registry, hcommit⟩ := hs.exists_commit_eq_ok hslot
  cases hcheck : s.flows.check p slot.inflow slot.outflow slot.staged.reserves with
  | error refusal =>
    simp only [commitPending, run_bind, run_get, run_ofOutcome, hslot, Outcome.ofOption, hcheck]
    simp [Except.map]
  | ok _ =>
    obtain ⟨flows, -, hrun⟩ := commitPending_of_replaced hslot hcheck hpreview hcommit
    simp [hrun, Except.map]

/-- A commit puts the staged pool in the place of the committed one and empties the slot; a refused
one changes nothing. -/
lemma Moves.of_finalize_pending {text poolKey : String} {now : Timestamp} (hs : s.Consistent)
    (h : Moves s (.finalize text poolKey now) answer s') (hslot : s.pendingOn? p = some slot)
    (htext : Txid.parse text = .ok slot.txid) (hkey : s.registry.addressForKey poolKey = .ok p) :
    (answer = .ok .done ∧ s'.registry.get? p = some slot.staged ∧ s'.pendingOn? p = none) ∨
      ∃ refusal, answer = .error refusal ∧ s' = s := by
  cases h with
  | refused => exact .inr ⟨_, rfl, rfl⟩
  | committed named keyed pending _ _ next _ =>
    obtain rfl := Except.ok.inj (hkey.symm.trans keyed)
    obtain rfl := Option.some.inj (hslot.symm.trans pending)
    obtain ⟨_, -, -, -, rfl⟩ := Registry.commit_eq_ok_iff.1 next
    refine .inl ⟨rfl, ?_, s.pending.get?_erase_self p⟩
    rw [Registry.get?_insert, if_pos (hs.staged_address hslot)]
  | recommitted named keyed settled =>
    obtain rfl := Except.ok.inj (hkey.symm.trans keyed)
    obtain rfl := Except.ok.inj (htext.symm.trans named)
    rw [isPending_iff.2 ⟨slot, hslot, rfl⟩] at settled
    cases settled

end Settlement

namespace Exchange

lemma begin_finalize (e : Exchange) (request : ResolveRequest) (now : Timestamp) :
    e.begin (.finalize request) now =
      (.answered ((e.settlement.perform (.finalize request.txid request.poolKey now)).1.map
          fun _ => .done),
        { e with settlement :=
            (e.settlement.perform (.finalize request.txid request.poolKey now)).2 }) := by
  rw [Settlement.perform, Settlement.Call.act, Settlement.run_map]
  simp only [begin, answerBy, settle_eq]
  cases ((Settlement.finalize request.txid request.poolKey now).run.run e.settlement).1 <;> rfl

end Exchange

namespace Session

namespace Sample

open Settlement.Sample (txid token legA legB)

/-- Half of what the native coin can be counted to. -/
def half : Coin := Coin.native (1#64 <<< 63)

/-- A pool is funded with half of the native coin's range and more, and is about to pay out half. -/
def turning : List Event :=
  whole 0 (.createPool "name" token 100#128 "") 2 ++
  whole 1 (.deposit "pool" { legA with sats := 600#64 + (1#64 <<< 63) } legB) 2 ++
  whole 2 (execute (txid 2) (swap 0#64 legA.outpoint ⟨txid 2, 0#32⟩ ⟨token, 5#128⟩ half)) 2

def turned : Exchange := ((start config).after turning).exchange

/-- The half has been paid out and is about to come in again. -/
def overturning : List Event :=
  turning ++
  whole 3 (.finalize ⟨(txid 2).text, "untweaked"⟩) 0 ++
  whole 4 (execute (txid 3) (swap 1#64 ⟨txid 2, 0#32⟩ ⟨txid 3, 0#32⟩ half ⟨token, 5#128⟩)) 2

def overturned : Exchange := ((start config).after overturning).exchange

end Sample

section Run

variable (config : Config) (events : List Event)

lemma effectsStand_after :
    ((start config).after events).exchange.settlement.EffectsStand := by
  rw [settlement_after]
  apply Settlement.effectsStand_after
  intro id account hfound
  cases hfound

/-- When a staged transaction can be committed. In every state that a session reaches, at any time,
the effect of a pending transaction can take place and its staged pool can follow the committed one.
So it is committed just when the flows recorded for the pool balance to its reserves, as they do
unless a deposit on the pool overflowed, and when its inflow still fits beside all that has ever
flowed in. Otherwise it is refused, and nothing changes. -/
theorem commit_accepted_iff {p : Address} {slot : PendingTransaction} {pool : Pool}
    (request : ResolveRequest) (now : Timestamp)
    (hslot : ((start config).after events).exchange.settlement.pendingOn? p = some slot)
    (hpool : ((start config).after events).exchange.settlement.registry.get? p = some pool)
    (htext : Txid.parse request.txid = .ok slot.txid)
    (hkey : request.poolKey = pool.keys.untweaked) :
    let e := ((start config).after events).exchange
    let booked := e.settlement.flows.flowsOf p
    let steps := (Settlement.ofConfig config).trace ((start config).settlementCalls events)
    (∃ account?, e.settlement.accounts.preview slot.effect now = .ok account?) ∧
    (∃ registry, e.settlement.registry.commit slot.staged = .ok registry) ∧
    ((e.begin (.finalize request) now).1 = .answered (.ok .done) ↔
      booked.balance = .ok pool.reserves ∧
        ∀ id, (booked.inflow.amountOf id).toNat + (slot.inflow.amountOf id).toNat ≤
          Reserves.limit id) ∧
    ((e.begin (.finalize request) now).1 = .answered (.ok .done) →
      (e.begin (.finalize request) now).2.settlement.registry.get? p = some slot.staged ∧
        (e.begin (.finalize request) now).2.settlement.pendingOn? p = none) ∧
    ((e.begin (.finalize request) now).1 ≠ .answered (.ok .done) →
      (e.begin (.finalize request) now).2 = e) ∧
    ((∀ step ∈ steps, ∀ legA legB,
        step.call = .deposit p legA legB → step.answer ≠ .error .overflow) →
      booked.balance = .ok pool.reserves ∧
        ∃ intentions : List Intention,
          (Settlement.committedOn steps p).map PendingTransaction.intention = intentions.map .ok ∧
          ∀ id, (booked.inflow.amountOf id).toNat =
            Coin.total ((Settlement.admittedOn steps p).flatMap Utxo.coins) id +
              Coin.total (intentions.flatMap Intention.inputCoins) id) := by
  intro e booked steps
  have hrun := settlement_after config events
  have hstand := effectsStand_after config events
  have hremembers := remembers_after config events
  have hs : e.settlement.Consistent := hremembers.consistent
  have hbooked : e.settlement.Booked p := by
    rw [hrun]
    exact Settlement.booked_after _ _ _ _ p
  have hkeyed : e.settlement.registry.addressForKey request.poolKey = .ok p := by
    rw [hkey]
    exact hremembers.keyed p pool hpool
  have hcheck := hbooked.check_eq_ok_iff (hs.leads hslot)
  rw [Settlement.reservesOn_eq hpool] at hcheck
  have haccepted := Settlement.finalize_accepted_iff now hs hstand hslot htext hkeyed
  have hmoves := (Settlement.moves_perform e.settlement
    (.finalize request.txid request.poolKey now)).of_finalize_pending hs hslot htext hkeyed
  refine ⟨(hstand.admitted p slot hslot).exists_preview_eq_ok now, hs.exists_commit_eq_ok hslot,
    ?_, ?_, ?_, ?_⟩
  · rw [← hcheck, ← haccepted, Exchange.begin_finalize]
    rcases hmoves with ⟨hanswer, -, -⟩ | ⟨refusal, hanswer, -⟩
    · simp [hanswer, Except.map]
    · simp [hanswer, Except.map]
  · intro haccept
    rw [Exchange.begin_finalize] at haccept ⊢
    rcases hmoves with ⟨-, hstored, hempty⟩ | ⟨refusal, hanswer, -⟩
    · exact ⟨hstored, hempty⟩
    · simp [hanswer, Except.map] at haccept
  · intro hrefuse
    rw [Exchange.begin_finalize] at hrefuse ⊢
    rcases hmoves with ⟨hanswer, -, -⟩ | ⟨refusal, -, hsame⟩
    · simp [hanswer, Except.map] at hrefuse
    · rw [hsame]
  · intro hfits
    obtain ⟨intentions, hcommitted, -, haccounted⟩ := Settlement.accounted_after hfits
    rw [← Settlement.ofConfig, ← hrun] at haccounted
    refine ⟨?_, intentions, hcommitted, haccounted.inflow⟩
    rw [← Settlement.reservesOn_eq hpool]
    exact haccounted.balanced

theorem commit_accepted_iff_sample :
    ∃ slot pool, Sample.turned.settlement.pendingOn? "pool" = some slot ∧
      Sample.turned.settlement.registry.get? "pool" = some pool ∧
      (Sample.turned.settlement.flows.flowsOf "pool").balance = .ok pool.reserves ∧
      (Sample.turned.begin (.finalize ⟨(Settlement.Sample.txid 2).text, "untweaked"⟩)
        0#64).2.settlement.registry.get? "pool" = some slot.staged := by
  obtain ⟨hslot, hpool, htext, hanswer⟩ :
      (Sample.turned.settlement.pendingOn? "pool").map (·.txid) = some (Settlement.Sample.txid 2) ∧
      (Sample.turned.settlement.registry.get? "pool").map (·.keys.untweaked) = some "untweaked" ∧
      Txid.parse (Settlement.Sample.txid 2).text = .ok (Settlement.Sample.txid 2) ∧
      (Sample.turned.settlement.perform
        (.finalize (Settlement.Sample.txid 2).text "untweaked" 0#64)).1.map
        (fun _ => Answer.done) = .ok .done := by
    decide +kernel
  obtain ⟨slot, hslot, htxid⟩ := Option.map_eq_some_iff.1 hslot
  obtain ⟨pool, hpool, hkey⟩ := Option.map_eq_some_iff.1 hpool
  have hnamed : Txid.parse (Settlement.Sample.txid 2).text = .ok slot.txid := by
    rw [htxid]
    exact htext
  have haccepted : (Sample.turned.begin (.finalize ⟨(Settlement.Sample.txid 2).text, "untweaked"⟩)
      0#64).1 = .answered (.ok .done) := by
    rw [Exchange.begin_finalize]
    exact congrArg Stage.answered hanswer
  obtain ⟨-, -, hiff, hcommits, -, -⟩ := commit_accepted_iff Sample.config Sample.turning
    ⟨(Settlement.Sample.txid 2).text, "untweaked"⟩ 0#64 hslot hpool hnamed hkey.symm
  obtain ⟨hbalance, -⟩ := hiff.1 haccepted
  obtain ⟨hstored, -⟩ := hcommits haccepted
  exact ⟨slot, pool, hslot, hpool, hbalance, hstored⟩

/-- A transaction that the reserves have room for is refused at its commit, because the gross inflow
has none. -/
theorem commit_refused_overturned :
    ∃ slot pool, Sample.overturned.settlement.pendingOn? "pool" = some slot ∧
      Sample.overturned.settlement.registry.get? "pool" = some pool ∧
      Txid.parse (Settlement.Sample.txid 3).text = .ok slot.txid ∧
      pool.keys.untweaked = "untweaked" ∧
      slot.staged.reserves.native = 1000#64 + (1#64 <<< 63) ∧
      (Sample.overturned.begin (.finalize ⟨(Settlement.Sample.txid 3).text, "untweaked"⟩) 0#64).1 =
        .answered (.error (FlowBook.violation "pool" Refusal.overflow.message)) := by
  obtain ⟨hslot, hpool, htext, hanswer⟩ :
      (Sample.overturned.settlement.pendingOn? "pool").map
        (fun slot => (slot.txid, slot.staged.reserves.native)) =
        some (Settlement.Sample.txid 3, 1000#64 + (1#64 <<< 63)) ∧
      (Sample.overturned.settlement.registry.get? "pool").map (·.keys.untweaked) =
        some "untweaked" ∧
      Txid.parse (Settlement.Sample.txid 3).text = .ok (Settlement.Sample.txid 3) ∧
      (Sample.overturned.settlement.perform
        (.finalize (Settlement.Sample.txid 3).text "untweaked" 0#64)).1.map
        (fun _ => Answer.done) = .error (FlowBook.violation "pool" Refusal.overflow.message) := by
    decide +kernel
  obtain ⟨slot, hslot, hstaged⟩ := Option.map_eq_some_iff.1 hslot
  obtain ⟨pool, hpool, hkey⟩ := Option.map_eq_some_iff.1 hpool
  obtain ⟨htxid, hnative⟩ := Prod.mk.inj hstaged
  refine ⟨slot, pool, hslot, hpool, ?_, hkey, hnative, ?_⟩
  · rw [htxid]
    exact htext
  · rw [Exchange.begin_finalize]
    exact congrArg Stage.answered hanswer

end Run

end Session

end RuneSettlement
