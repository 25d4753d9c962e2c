import RuneSettlement.Pool
import RuneSettlement.Proofs.CanonicalReserves

/-!
# Sums of outputs

The projection of a set of outputs credits what each output holds to empty reserves. Where it
succeeds it is canonical and exact in every asset. Sets whose outputs are filed under their own
outpoints and carry no native coin as a rune stay so under `receive` and `spend`, and their
projection is the sum of the native amounts and the sum of each rune.
-/

namespace RuneSettlement

/-- What an output holds, the native coin first. -/
def Utxo.coins (u : Utxo) : List Coin := Coin.native u.sats :: u.rune.toList

lemma Reserves.credit_native (r : Reserves) (sats : Sats) :
    r.credit (Coin.native sats) =
      Quantity.add r.native sats >>= fun native => .ok { r with native } := by
  have hsats : Quantity.toSats (Quantity.widen sats) = .ok sats := by
    rw [Quantity.toSats_eq_ok_iff, Quantity.toNat_widen]
  simp only [credit, Coin.native, if_true, hsats]
  rfl

lemma Utxo.addTo_eq_creditAll (u : Utxo) (r : Reserves) : u.addTo r = r.creditAll u.coins := by
  rw [coins, Reserves.creditAll, List.foldlM_cons, Reserves.credit_native, addTo]
  cases Quantity.add r.native u.sats with
  | error refusal => rfl
  | ok native =>
    cases hrune : u.rune with
    | none => rfl
    | some coin =>
      change _ = Reserves.credit _ coin >>= pure
      rw [bind_pure]
      rfl

namespace UtxoSet

def coins (s : UtxoSet) : List Coin := s.toList.flatMap Utxo.coins

/-- The sum of the native amounts of a set. -/
def satsHeld (s : UtxoSet) : Nat := (s.toList.map fun u => u.sats.toNat).sum

/-- The sum of what the outputs of a set carry of one rune. -/
def runesHeld (s : UtxoSet) (id : CoinId) : Nat :=
  (s.toList.map fun u => if u.runeId? = some id then u.runeAmount.toNat else 0).sum

lemma foldlM_addTo (utxos : List Utxo) (r : Reserves) :
    utxos.foldlM (fun r u => u.addTo r) r = r.creditAll (utxos.flatMap Utxo.coins) := by
  induction utxos generalizing r with
  | nil => rfl
  | cons u utxos ih =>
    rw [List.foldlM_cons, Utxo.addTo_eq_creditAll, List.flatMap_cons, Reserves.creditAll,
      Reserves.creditAll, List.foldlM_append]
    congr 1
    funext next
    exact ih next

lemma reserves_eq_creditAll (s : UtxoSet) : s.reserves = Reserves.empty.creditAll s.coins :=
  foldlM_addTo s.toList .empty

lemma canonical_of_reserves {s : UtxoSet} {r : Reserves} (h : s.reserves = .ok r) :
    r.Canonical :=
  Reserves.canonical_empty.creditAll (s.reserves_eq_creditAll ▸ h)

theorem toNat_amountOf_reserves {s : UtxoSet} {r : Reserves} (h : s.reserves = .ok r)
    (id : CoinId) : (r.amountOf id).toNat = Coin.total s.coins id := by
  rw [Reserves.toNat_amountOf_creditAll (s.reserves_eq_creditAll ▸ h), Reserves.amountOf_empty]
  exact Nat.zero_add _

lemma toList_perm_of_add {s s' : UtxoSet} {u : Utxo} (h : s.add u = .ok s') :
    s'.toList.Perm (u :: s.toList) := by
  have hfree := (add_eq_ok_iff.1 h).1
  unfold add at h
  split at h
  · cases h
  · cases h
    exact SortedMap.perm_values_insert u hfree

lemma toList_perm_of_receive {s s' : UtxoSet} {utxos : List Utxo}
    (h : s.receive utxos = .ok s') : s'.toList.Perm (utxos ++ s.toList) := by
  induction utxos generalizing s with
  | nil =>
    cases h
    exact .refl _
  | cons u utxos ih =>
    rw [receive_cons, Outcome.bind_eq_ok_iff] at h
    obtain ⟨next, hnext, hrest⟩ := h
    calc s'.toList.Perm (utxos ++ next.toList) := ih hrest
      _ |>.Perm (utxos ++ u :: s.toList) := (toList_perm_of_add hnext).append_left utxos
      _ |>.Perm (u :: utxos ++ s.toList) := List.perm_middle

/-- Every output is filed under its own outpoint, and none carries the native coin as a rune. -/
structure Sound (s : UtxoSet) : Prop where
  filed : ∀ o u, s.get? o = some u → u.outpoint = o
  runes : ∀ o u, s.get? o = some u → u.runeId? ≠ some .native

lemma sound_empty : empty.Sound where
  filed o u h := by simp at h
  runes o u h := by simp at h

lemma Sound.add {s s' : UtxoSet} {u : Utxo} (hs : s.Sound) (hu : u.runeId? ≠ some .native)
    (h : s.add u = .ok s') : s'.Sound := by
  have hget := (add_eq_ok_iff.1 h).2
  constructor
  · intro o v hv
    rw [hget] at hv
    split at hv
    · next ho =>
      cases hv
      exact ho
    · exact hs.filed o v hv
  · intro o v hv
    rw [hget] at hv
    split at hv
    · cases hv
      exact hu
    · exact hs.runes o v hv

lemma Sound.receive {s s' : UtxoSet} {utxos : List Utxo} (hs : s.Sound)
    (hutxos : ∀ u ∈ utxos, u.runeId? ≠ some .native) (h : s.receive utxos = .ok s') :
    s'.Sound := by
  induction utxos generalizing s with
  | nil =>
    cases h
    exact hs
  | cons u utxos ih =>
    rw [receive_cons, Outcome.bind_eq_ok_iff] at h
    obtain ⟨next, hnext, hrest⟩ := h
    have hnextSound := hs.add (hutxos u List.mem_cons_self) hnext
    exact ih hnextSound (fun v hv => hutxos v (List.mem_cons_of_mem u hv)) hrest

lemma Sound.spend {s rest : UtxoSet} {ids : List OutPoint} {utxos : List Utxo} (hs : s.Sound)
    (h : s.spend ids = .ok (utxos, rest)) : rest.Sound := by
  obtain ⟨-, -, hget⟩ := of_spend_eq_ok h
  constructor
  · intro o u hu
    rw [hget] at hu
    split at hu
    · cases hu
    · exact hs.filed o u hu
  · intro o u hu
    rw [hget] at hu
    split at hu
    · cases hu
    · exact hs.runes o u hu

lemma mem_toList_iff {s : UtxoSet} {u : Utxo} : u ∈ s.toList ↔ ∃ o, s.get? o = some u :=
  SortedMap.mem_values_iff

lemma Sound.runeId?_ne {s : UtxoSet} (hs : s.Sound) {u : Utxo} (hu : u ∈ s.toList) :
    u.runeId? ≠ some .native := by
  obtain ⟨o, ho⟩ := mem_toList_iff.1 hu
  exact hs.runes o u ho

lemma total_coins_native {utxos : List Utxo} (h : ∀ u ∈ utxos, u.runeId? ≠ some .native) :
    Coin.total (utxos.flatMap Utxo.coins) .native = (utxos.map fun u => u.sats.toNat).sum := by
  induction utxos with
  | nil => rfl
  | cons u utxos ih =>
    have hrest := ih fun v hv => h v (List.mem_cons_of_mem u hv)
    have hfirst : Coin.total u.coins .native = u.sats.toNat := by
      have hu := h u List.mem_cons_self
      cases hrune : u.rune with
      | none => simp [Utxo.coins, Coin.native, hrune]
      | some coin =>
        have hid : coin.id ≠ .native := by simpa [Utxo.runeId?, hrune] using hu
        simp [Utxo.coins, Coin.native, hrune, hid]
    rw [List.flatMap_cons, Coin.total_append, List.map_cons, List.sum_cons, hfirst, hrest]

lemma total_coins_rune (utxos : List Utxo) {id : CoinId} (hid : id ≠ .native) :
    Coin.total (utxos.flatMap Utxo.coins) id =
      (utxos.map fun u => if u.runeId? = some id then u.runeAmount.toNat else 0).sum := by
  induction utxos with
  | nil => rfl
  | cons u utxos ih =>
    have hfirst : Coin.total u.coins id =
        if u.runeId? = some id then u.runeAmount.toNat else 0 := by
      cases hrune : u.rune <;>
        simp [Utxo.coins, Coin.native, Utxo.runeId?, Utxo.runeAmount, hrune, Ne.symm hid]
    rw [List.flatMap_cons, Coin.total_append, List.map_cons, List.sum_cons, hfirst, ih]

/-- Of a sound set the projection holds the sum of the native amounts. -/
theorem Sound.toNat_native_of_reserves {s : UtxoSet} {r : Reserves} (hs : s.Sound)
    (h : s.reserves = .ok r) : r.native.toNat = s.satsHeld := by
  rw [← Reserves.toNat_amountOf_native, toNat_amountOf_reserves h, coins, satsHeld]
  exact total_coins_native fun u hu => hs.runeId?_ne hu

/-- The projection holds the sum of each rune. -/
theorem toNat_amountOf_rune_of_reserves {s : UtxoSet} {r : Reserves} (h : s.reserves = .ok r)
    {id : CoinId} (hid : id ≠ .native) : (r.amountOf id).toNat = s.runesHeld id := by
  rw [toNat_amountOf_reserves h]
  exact total_coins_rune s.toList hid

end UtxoSet

end RuneSettlement
