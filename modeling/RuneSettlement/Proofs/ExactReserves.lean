import RuneSettlement.Proofs.PoolMoves

/-!
# Reserves are the sums of the outputs

The reserves of a pool are computed from claims, the coins of its deposit and of its intentions,
while its outputs change by spending and by assigning shortfalls. In every reachable state the two
agree for every committed and for every staged pool (`reserves_exact`).
-/

namespace RuneSettlement

/-- The reserves of a pool are the exact sums of its outputs. -/
structure Pool.Exact (p : Pool) : Prop where
  native : p.reserves.native.toNat = p.utxos.satsHeld
  token : ∀ id, id ≠ .native → (p.reserves.amountOf id).toNat = p.utxos.runesHeld id
  canonical : p.reserves.Canonical
  sound : p.utxos.Sound
  projected : p.utxos.reserves = .ok p.reserves
  checked : p.checkReserves = .ok ()

namespace Pool

lemma exact_of_sound {p : Pool} (hsound : p.utxos.Sound)
    (hprojected : p.utxos.reserves = .ok p.reserves) : p.Exact where
  native := hsound.toNat_native_of_reserves hprojected
  token := fun _ hid => UtxoSet.toNat_amountOf_rune_of_reserves hprojected hid
  canonical := UtxoSet.canonical_of_reserves hprojected
  sound := hsound
  projected := hprojected
  checked := checkReserves_eq_ok_iff.2 hprojected

lemma exact_create (name : String) (keys : PoolKeys) (token : CoinId) (depositAmount : Amount)
    (attributes : String) : (create name keys token depositAmount attributes).Exact :=
  exact_of_sound UtxoSet.sound_empty rfl

lemma runeId?_of_depositedRune {legA legB : Utxo} {id : CoinId}
    (h : Registry.depositedRune legA legB = .ok id) :
    ∀ leg ∈ [legA, legB], leg.runeId? = none ∨ leg.runeId? = some id := by
  obtain ⟨-, honly⟩ := Registry.depositedRune_eq_ok_iff.1 h
  intro leg hleg
  cases hid : leg.runeId? with
  | none => exact .inl rfl
  | some other => exact .inr (congrArg some (honly leg hleg other hid))

lemma Exact.fund {p next : Pool} {legA legB : Utxo} (hp : p.Exact) (htoken : p.token ≠ .native)
    (hrune : Registry.depositedRune legA legB = .ok p.token)
    (h : p.fund [legA, legB] = .ok next) : next.Exact := by
  obtain ⟨utxos, reserves, hreceive, hreserves, rfl⟩ := fund_eq_ok_iff.1 h
  have hlegs : ∀ leg ∈ [legA, legB], leg.runeId? ≠ some .native := by
    intro leg hleg hnative
    rcases runeId?_of_depositedRune hrune leg hleg with hnone | hsome
    · rw [hnative] at hnone
      cases hnone
    · rw [hnative] at hsome
      exact htoken (Option.some.inj hsome).symm
  exact exact_of_sound (hp.sound.receive hlegs hreceive) hreserves

lemma Exact.stage {p staged : Pool} {spends receives : List String} {post : Reserves}
    (hp : p.Exact) (h : p.stage spends receives post = .ok staged) : staged.Exact := by
  obtain ⟨-, hcheck⟩ := reserves_of_stage h
  exact exact_of_sound (sound_of_stage hp.sound h) (checkReserves_eq_ok_iff.1 hcheck)

end Pool

namespace Settlement

/-- The committed pool of an address, if there is one, trades a token and has exact reserves. -/
def ExactOn (s : Settlement) (p : Address) : Prop :=
  ∀ pool, s.registry.get? p = some pool → pool.token ≠ .native ∧ pool.Exact

variable {s s' : Settlement} {p : Address} {call : Call} {answer : Outcome Receipt}
  {legs : List Utxo} {slot? : Option PendingTransaction}

lemma ExactOn.staged {slot : PendingTransaction} (h : s.ExactOn p) (hs : s.Consistent)
    (hslot : s.pendingOn? p = some slot) : slot.staged.token ≠ .native ∧ slot.staged.Exact := by
  obtain ⟨plan, i, pool, post, hbasis, hholds, rfl⟩ := hs.exists_basis hslot
  obtain ⟨htoken, hexact⟩ := h pool hbasis.committed
  have hsucceeds := Pool.succeeds_of_stage hbasis.staged
  rw [hholds.staged]
  refine ⟨?_, hexact.stage hbasis.staged⟩
  rw [hsucceeds.token]
  exact htoken

/-- Unless it registers a pool for the native coin where there is none, a call keeps reserves
exact. -/
theorem PoolMove.exactOn (hmove : PoolMove p s s' call answer legs slot?) (hs : s.Consistent)
    (hcall : s.registry.get? p = none → ∀ name keys depositAmount attributes,
      call ≠ .registerPool name keys .native depositAmount attributes)
    (h : s.ExactOn p) : s'.ExactOn p := by
  intro pool hpool
  cases hmove with
  | kept stored flows =>
    rw [stored] at hpool
    exact h pool hpool
  | @registered name keys token depositAmount attributes _ absent stored flows =>
    rw [stored] at hpool
    cases hpool
    have htoken : token ≠ .native := by
      rintro rfl
      exact hcall absent name keys depositAmount attributes rfl
    exact ⟨htoken, Pool.exact_create name keys token depositAmount attributes⟩
  | funded current unfunded token fund stored | unrecorded current unfunded token fund stored =>
    rw [stored] at hpool
    cases hpool
    obtain ⟨htoken, hexact⟩ := h _ current
    have hnext := hexact.fund htoken token fund
    obtain ⟨_, _, -, -, rfl⟩ := Pool.fund_eq_ok_iff.1 fund
    exact ⟨htoken, hnext⟩
  | committed pending stored recorded balanced =>
    rw [stored] at hpool
    cases hpool
    exact h.staged hs pending

section Run

variable (rules : Rules) (accounts : AccountBook) (capacity : Nat) {calls : List Call}

lemma exactOn_after
    (htokens : ∀ name keys depositAmount attributes,
      Call.registerPool name keys .native depositAmount attributes ∉ calls) (p : Address) :
    ((create rules accounts capacity).after calls).ExactOn p := by
  induction calls using List.reverseRecOn with
  | nil =>
    intro pool hpool
    simp [create] at hpool
  | append_singleton calls call ih =>
    have hs := consistent_after rules accounts capacity calls
    have hmove := (moves_perform _ call).poolMove hs p
    rw [after_concat]
    have hbefore : ∀ name keys depositAmount attributes,
        Call.registerPool name keys .native depositAmount attributes ∉ calls := by
      intro name keys depositAmount attributes hmem
      exact htokens name keys depositAmount attributes (List.mem_append_left [call] hmem)
    refine hmove.exactOn hs ?_ (ih hbefore)
    intro _ name keys depositAmount attributes heq
    apply htokens name keys depositAmount attributes
    rw [heq]
    exact List.mem_append_right calls (List.mem_singleton_self _)

/-- The cached reserves never diverge from the outputs: in every state that a run over token pools
reaches, every committed pool and every staged one has the exact sums of its outputs. -/
theorem reserves_exact
    (htokens : ∀ name keys depositAmount attributes,
      Call.registerPool name keys .native depositAmount attributes ∉ calls) :
    let s := (create rules accounts capacity).after calls
    (∀ p pool, s.registry.get? p = some pool → pool.Exact) ∧
      ∀ p slot, s.pendingOn? p = some slot → slot.staged.Exact := by
  have hexact := exactOn_after rules accounts capacity htokens
  have hs := consistent_after rules accounts capacity calls
  constructor
  · intro p pool hpool
    exact (hexact p pool hpool).2
  · intro p slot hslot
    exact ((hexact p).staged hs hslot).2

theorem reserves_exact_sample :
    let s := (create Sample.rules (.create 0#64 0#128) 10).after Sample.staging
    ∃ pool slot, s.registry.get? "pool" = some pool ∧ s.pendingOn? "pool" = some slot ∧
      pool.Exact ∧ slot.staged.Exact := by
  intro s
  have hfilled : (s.pendingOn? "pool").isSome = true := by decide +kernel
  obtain ⟨slot, hslot⟩ := Option.isSome_iff_exists.1 hfilled
  have hs := consistent_after Sample.rules (.create 0#64 0#128) 10 Sample.staging
  obtain ⟨pool, hpool⟩ := hs.exists_pool hslot
  have htokens : ∀ name keys depositAmount attributes,
      Call.registerPool name keys .native depositAmount attributes ∉ Sample.staging := by
    simp [Sample.staging, Sample.token]
  obtain ⟨hpools, hslots⟩ := reserves_exact Sample.rules (.create 0#64 0#128) 10 htokens
  exact ⟨pool, slot, hpool, hslot, hpools "pool" pool hpool, hslots "pool" slot hslot⟩

end Run

end Settlement

end RuneSettlement
