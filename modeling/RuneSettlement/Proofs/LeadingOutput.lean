import RuneSettlement.Proofs.ExactReserves

/-!
# The leading output of a pool

`Pool.nativeUtxo?` scans the outputs in the order of their outpoints and keeps the best so far.
`Utxo.Leads` says what it comes to without the scan: the most native value, then the absence of a
rune, then the greatest outpoint. A pool with exact reserves has such an output exactly when it
reserves any of the native coin.
-/

namespace RuneSettlement

/-- The output is one of a list and comes before all others for a spender of native value. -/
structure Utxo.Leads (u : Utxo) (utxos : List Utxo) : Prop where
  mem : u ∈ utxos
  richest : ∀ v ∈ utxos, v.sats.toNat ≤ u.sats.toNat
  runeless : ∀ v ∈ utxos, v.sats = u.sats → v.rune = none → u.rune = none
  last : ∀ v ∈ utxos, v.sats = u.sats → (v.rune = none ↔ u.rune = none) →
    v = u ∨ Key.before v.outpoint u.outpoint = true

namespace Pool

/-- Keeps the better of two outputs, the later one of equals. -/
def prefer : Option Utxo → Utxo → Option Utxo
  | some best, u => if outweighs u best then some u else some best
  | none, u => some u

lemma nativeUtxo?_eq (p : Pool) :
    p.nativeUtxo? = (p.utxos.toList.filter fun u => decide (u.sats ≠ 0#64)).foldl prefer none := by
  rw [nativeUtxo?]
  congr 1
  funext best u
  cases best <;> rfl

lemma outweighs_iff {u best : Utxo} :
    outweighs u best = true ↔ best.sats.toNat < u.sats.toNat ∨
      best.sats = u.sats ∧ (u.rune = none ∨ best.rune ≠ none) := by
  simp [outweighs, Option.isSome_iff_ne_none]

lemma foldl_prefer_eq_none {utxos : List Utxo} (h : utxos.foldl prefer none = none) :
    utxos = [] := by
  cases utxos using List.reverseRecOn with
  | nil => rfl
  | append_singleton utxos u =>
    rw [List.foldl_append, List.foldl_cons, List.foldl_nil] at h
    cases hbest : utxos.foldl prefer none with
    | none =>
      rw [hbest] at h
      cases h
    | some best =>
      rw [hbest, prefer] at h
      split at h <;> cases h

section Scan

variable {utxos : List Utxo} {u best : Utxo}

/-- An output that outweighs the leading one of those before it leads in its place. -/
lemma leads_of_outweighs (h : best.Leads utxos) (hweighs : outweighs u best = true)
    (hlater : ∀ v ∈ utxos, Key.before v.outpoint u.outpoint = true) :
    u.Leads (utxos ++ [u]) := by
  have hmost : best.sats.toNat ≤ u.sats.toNat := by
    rcases outweighs_iff.1 hweighs with hless | ⟨heq, -⟩
    · exact Nat.le_of_lt hless
    · exact Nat.le_of_eq (congrArg BitVec.toNat heq)
  refine ⟨List.mem_append_right _ (List.mem_singleton_self u), ?richest, ?runeless, ?last⟩
  case richest =>
    intro v hv
    rcases List.mem_append.1 hv with hv | hv
    · exact Nat.le_trans (h.richest v hv) hmost
    · obtain rfl := List.mem_singleton.1 hv
      exact Nat.le_refl _
  case runeless =>
    intro v hv hsats hrune
    rcases List.mem_append.1 hv with hv | hv
    · -- An equal of the new output that came before it is an equal of the old leader too.
      have hequal : v.sats = best.sats := by
        have hle := h.richest v hv
        apply BitVec.eq_of_toNat_eq
        rw [hsats] at hle ⊢
        omega
      have hbest := h.runeless v hv hequal hrune
      rcases outweighs_iff.1 hweighs with hless | ⟨-, hnone | hsome⟩
      · rw [← hequal, hsats] at hless
        exact absurd hless (Nat.lt_irrefl _)
      · exact hnone
      · exact absurd hbest hsome
    · rw [← List.mem_singleton.1 hv]
      exact hrune
  case last =>
    intro v hv _ _
    rcases List.mem_append.1 hv with hv | hv
    · exact .inr (hlater v hv)
    · exact .inl (List.mem_singleton.1 hv)

/-- An output that does not outweigh the leading one leaves it in the lead. -/
lemma leads_of_not_outweighs (h : best.Leads utxos) (hweighs : ¬outweighs u best = true) :
    best.Leads (utxos ++ [u]) := by
  rw [outweighs_iff, not_or, not_and, not_or, not_not] at hweighs
  obtain ⟨hless, hequal⟩ := hweighs
  refine ⟨List.mem_append_left _ h.mem, ?richest, ?runeless, ?last⟩
  case richest =>
    intro v hv
    rcases List.mem_append.1 hv with hv | hv
    · exact h.richest v hv
    · rw [List.mem_singleton.1 hv]
      exact Nat.not_lt.1 hless
  case runeless =>
    intro v hv hsats hrune
    rcases List.mem_append.1 hv with hv | hv
    · exact h.runeless v hv hsats hrune
    · rw [List.mem_singleton.1 hv] at hsats hrune
      exact absurd hrune (hequal hsats.symm).1
  case last =>
    intro v hv hsats hrune
    rcases List.mem_append.1 hv with hv | hv
    · exact h.last v hv hsats hrune
    · rw [List.mem_singleton.1 hv] at hsats hrune
      obtain ⟨hsome, hnone⟩ := hequal hsats.symm
      exact absurd (hrune.2 hnone) hsome

/-- Of outputs in the order of their outpoints the scan keeps the leading one. -/
lemma leads_of_foldl
    (hordered : utxos.Pairwise fun a b => Key.before a.outpoint b.outpoint = true)
    (h : utxos.foldl prefer none = some u) : u.Leads utxos := by
  induction utxos using List.reverseRecOn generalizing u with
  | nil => cases h
  | append_singleton utxos v ih =>
    obtain ⟨hbefore, -, hlater⟩ := List.pairwise_append.1 hordered
    rw [List.foldl_append, List.foldl_cons, List.foldl_nil] at h
    cases hbest : utxos.foldl prefer none with
    | none =>
      obtain rfl := foldl_prefer_eq_none hbest
      cases h
      exact ⟨List.mem_singleton_self v, by simp, by simp, by simp⟩
    | some best =>
      have hleads := ih hbefore hbest
      rw [hbest, prefer] at h
      split at h
      case isTrue hweighs =>
        cases h
        exact leads_of_outweighs hleads hweighs fun w hw => hlater w hw v (.head _)
      case isFalse hweighs =>
        cases h
        exact leads_of_not_outweighs hleads hweighs

end Scan

end Pool

namespace Utxo.Leads

variable {utxos : List Utxo} {u v : Utxo}

/-- Outputs of no value are no match for one of some value. -/
lemma of_filter (h : u.Leads (utxos.filter fun v => decide (v.sats ≠ 0#64))) :
    u.Leads utxos := by
  obtain ⟨hmem, hvalue⟩ := List.mem_filter.1 h.mem
  have hsome : u.sats ≠ 0#64 := of_decide_eq_true hvalue
  have hfiltered : ∀ v ∈ utxos, v.sats ≠ 0#64 →
      v ∈ utxos.filter fun v => decide (v.sats ≠ 0#64) := fun v hv hvalue =>
    List.mem_filter.2 ⟨hv, decide_eq_true hvalue⟩
  refine ⟨hmem, ?_, ?_, ?_⟩
  · intro v hv
    by_cases hzero : v.sats = 0#64
    · rw [hzero]
      exact Nat.zero_le _
    · exact h.richest v (hfiltered v hv hzero)
  · intro v hv hsats
    exact h.runeless v (hfiltered v hv (hsats ▸ hsome)) hsats
  · intro v hv hsats
    exact h.last v (hfiltered v hv (hsats ▸ hsome)) hsats

/-- There is one leading output at most. -/
lemma eq (hu : u.Leads utxos) (hv : v.Leads utxos) : u = v := by
  have hsats : u.sats = v.sats :=
    BitVec.eq_of_toNat_eq (Nat.le_antisymm (hv.richest u hu.mem) (hu.richest v hv.mem))
  have hrune : u.rune = none ↔ v.rune = none :=
    ⟨hv.runeless u hu.mem hsats, hu.runeless v hv.mem hsats.symm⟩
  rcases hv.last u hu.mem hsats hrune with heq | hbefore
  · exact heq
  · rcases hu.last v hv.mem hsats.symm hrune.symm with heq | hafter
    · exact heq.symm
    · exact absurd rfl (Key.ne_of_before (Key.before_trans hbefore hafter))

end Utxo.Leads

namespace UtxoSet

/-- The outputs of a sound set are listed in the order of their outpoints. -/
lemma Sound.ascending {s : UtxoSet} (hs : s.Sound) :
    s.toList.Pairwise fun a b => Key.before a.outpoint b.outpoint = true := by
  have hfiled : ∀ e ∈ s.outputs.entries, e.2.outpoint = e.1 := fun e he =>
    hs.filed e.1 e.2 (SortedMap.get?_eq_some_iff.2 he)
  rw [toList, SortedMap.values, List.pairwise_map]
  refine s.outputs.ascending.imp_of_mem ?_
  intro a b ha hb hbefore
  rw [hfiled a ha, hfiled b hb]
  exact hbefore

end UtxoSet

namespace Pool

variable {p : Pool}

/-- A pool with exact reserves has an output to spend native value from unless it reserves none. -/
theorem Exact.nativeUtxo?_eq_none_iff (hp : p.Exact) :
    p.nativeUtxo? = none ↔ p.reserves.native = 0#64 := by
  have hnone : p.nativeUtxo? = none ↔ ∀ u ∈ p.utxos.toList, u.sats = 0#64 := by
    rw [nativeUtxo?_eq]
    constructor
    · intro h
      simpa [List.filter_eq_nil_iff] using foldl_prefer_eq_none h
    · intro h
      have hnil : (p.utxos.toList.filter fun u => decide (u.sats ≠ 0#64)) = [] := by
        simpa [List.filter_eq_nil_iff] using h
      rw [hnil]
      rfl
  have hzero : p.reserves.native = 0#64 ↔ ∀ u ∈ p.utxos.toList, u.sats = 0#64 := by
    have hheld : p.reserves.native = 0#64 ↔ p.utxos.satsHeld = 0 := by
      rw [← hp.native, ← BitVec.toNat_inj]
      rfl
    rw [hheld, UtxoSet.satsHeld, List.sum_eq_zero_iff_forall_eq_nat, List.forall_mem_map]
    simp only [← BitVec.toNat_inj]
    rfl
  rw [hnone, hzero]

/-- It is the leading output. -/
theorem Exact.nativeUtxo?_eq_some_iff (hp : p.Exact) {u : Utxo} :
    p.nativeUtxo? = some u ↔ p.reserves.native ≠ 0#64 ∧ u.Leads p.utxos.toList := by
  have hleads : ∀ {u}, p.nativeUtxo? = some u → u.Leads p.utxos.toList := by
    intro u h
    rw [nativeUtxo?_eq] at h
    exact (leads_of_foldl (hp.sound.ascending.filter _) h).of_filter
  constructor
  · intro h
    refine ⟨?_, hleads h⟩
    intro hzero
    rw [hp.nativeUtxo?_eq_none_iff.2 hzero] at h
    cases h
  · rintro ⟨hfunded, hu⟩
    cases h : p.nativeUtxo? with
    | none => exact absurd (hp.nativeUtxo?_eq_none_iff.1 h) hfunded
    | some v => rw [(hleads h).eq hu]

end Pool

end RuneSettlement
