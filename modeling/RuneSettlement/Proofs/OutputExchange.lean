import RuneSettlement.Proofs.Alarms
import RuneSettlement.Proofs.TextOrder

/-!
# Outputs taken in and given out

A set takes outputs in just where their outpoints are free and all different, and gives outputs out
just where it owns each and each is named once. Both are exact, each undoes the other, and the
outputs are always listed in the order of their outpoints (`UtxoSet.Lawful`). `UtxoSet.InPlace` has
the same two calls as changes to a set in place: all outpoints are checked first, and the set is
changed afterwards, one output at a time. So a refused call has changed nothing, and the laws hold
of every set that such calls can build, refused ones among them (`UtxoSet.lawful_after`).
-/

namespace RuneSettlement

/-! ### The order of outpoints -/

lemma Bytes.map_toNat_lt_iff {as bs : Bytes} :
    as.map UInt8.toNat < bs.map UInt8.toNat ↔ as < bs := by
  induction as generalizing bs with
  | nil => cases bs <;> simp
  | cons a as ih =>
    cases bs with
    | nil => simp
    | cons b bs =>
      rw [List.map_cons, List.map_cons, List.cons_lt_cons_iff, List.cons_lt_cons_iff, ih,
        UInt8.lt_iff_toNat_lt, UInt8.toNat_inj]

/-- The bytes of the transaction come first, then the output number. -/
def OutPoint.Before (a b : OutPoint) : Prop :=
  a.txid.bytes.toList < b.txid.bytes.toList ∨ a.txid = b.txid ∧ a.vout.toNat < b.vout.toNat

lemma OutPoint.before_iff {a b : OutPoint} : Key.before a b = true ↔ a.Before b := by
  have hlength : a.txid.code.length = b.txid.code.length := by
    simp [Txid.code, FixedBytes.length_toList]
  have hcode : a.txid.code = b.txid.code ↔ a.txid = b.txid :=
    ⟨Txid.code_injective, congrArg Txid.code⟩
  have hkey : Key.before a b =
      lexBefore (a.txid.code ++ [a.vout.toNat]) (b.txid.code ++ [b.vout.toNat]) := rfl
  have hvout : [a.vout.toNat] < [b.vout.toNat] ↔ a.vout.toNat < b.vout.toNat := by
    simp [List.cons_lt_cons_iff]
  rw [hkey, lexBefore_iff_lt, append_lt_append_iff hlength, hcode, hvout, Txid.code, Txid.code,
    Bytes.map_toNat_lt_iff]
  rfl

namespace UtxoSet

variable {s s' rest : UtxoSet} {ids : List OutPoint} {utxos : List Utxo}

lemma ext_get? {t : UtxoSet} (h : ∀ o u, s.get? o = some u ↔ t.get? o = some u) : s = t := by
  cases s
  cases t
  congr 1
  apply SortedMap.ext_get?
  intro o
  apply Option.ext
  exact h o

/-- Each outpoint is named once, and the set owns all of them or, as `owned` says, none. -/
structure Names (s : UtxoSet) (owned : Bool) (ids : List OutPoint) : Prop where
  once : ids.Nodup
  each : ∀ id ∈ ids, s.contains id = owned

instance (s : UtxoSet) (owned : Bool) (ids : List OutPoint) : Decidable (s.Names owned ids) :=
  decidable_of_iff (ids.Nodup ∧ ∀ id ∈ ids, s.contains id = owned)
    ⟨fun h => ⟨h.1, h.2⟩, fun h => ⟨h.once, h.each⟩⟩

/-! ### Receiving -/

lemma get?_eq_none_iff {o : OutPoint} : s.get? o = none ↔ s.contains o = false := by
  rw [contains_eq]
  cases s.get? o <;> simp

/-- What is received joins what is there. -/
lemma get?_of_receive (h : s.receive utxos = .ok s') (o : OutPoint) (u : Utxo) :
    s'.get? o = some u ↔ s.get? o = some u ∨ u ∈ utxos ∧ u.outpoint = o := by
  obtain ⟨hnodup, hfree, hget⟩ := of_receive_eq_ok h
  rw [hget]
  cases hfind : utxos.find? fun v => decide (v.outpoint = o) with
  | none =>
    have habsent : ¬(u ∈ utxos ∧ u.outpoint = o) := by
      rintro ⟨hu, ho⟩
      exact List.find?_eq_none.1 hfind u hu (decide_eq_true ho)
    simp [habsent]
  | some v =>
    have hv := List.mem_of_find?_eq_some hfind
    have ho : v.outpoint = o := by simpa using List.find?_some hfind
    have hnone : s.get? o = none := ho ▸ hfree v hv
    simp only [hnone, Option.some_or, Option.some.injEq, reduceCtorEq, false_or]
    constructor
    · rintro rfl
      exact ⟨hv, ho⟩
    · rintro ⟨hu, hsame⟩
      exact List.inj_on_of_nodup_map hnodup hv hu (ho.trans hsame.symm)

lemma exists_receive_iff :
    (∃ s', s.receive utxos = .ok s') ↔ s.Names false (utxos.map (·.outpoint)) := by
  constructor
  · rintro ⟨s', h⟩
    obtain ⟨hnodup, hfree, -⟩ := of_receive_eq_ok h
    refine ⟨hnodup, ?_⟩
    intro id hid
    obtain ⟨u, hu, rfl⟩ := List.mem_map.1 hid
    exact get?_eq_none_iff.1 (hfree u hu)
  · intro h
    apply exists_receive h.once
    intro u hu
    exact get?_eq_none_iff.2 (h.each u.outpoint (List.mem_map_of_mem hu))

theorem receive_eq_ok_iff :
    s.receive utxos = .ok s' ↔
      s.Names false (utxos.map (·.outpoint)) ∧
        ∀ o u, s'.get? o = some u ↔ s.get? o = some u ∨ u ∈ utxos ∧ u.outpoint = o := by
  constructor
  · intro h
    exact ⟨exists_receive_iff.1 ⟨s', h⟩, get?_of_receive h⟩
  · rintro ⟨hnames, hget⟩
    obtain ⟨next, hnext⟩ := exists_receive_iff.2 hnames
    have hsame : next = s' := by
      apply ext_get?
      intro o u
      rw [get?_of_receive hnext, hget]
    rw [hnext, hsame]

theorem receive_eq_error_iff {refusal : Refusal} :
    s.receive utxos = .error refusal ↔
      ¬s.Names false (utxos.map (·.outpoint)) ∧ refusal = .invalidInput :=
  (refusesOnly_receive s utxos).eq_error_iff exists_receive_iff

/-! ### Spending -/

lemma exists_spend_iff : (∃ answer, s.spend ids = .ok answer) ↔ s.Names true ids := by
  constructor
  · rintro ⟨⟨utxos, rest⟩, h⟩
    obtain ⟨hnodup, hfound, -⟩ := of_spend_eq_ok h
    refine ⟨hnodup, ?_⟩
    intro id hid
    have hmem : s.get? id ∈ utxos.map some := hfound ▸ List.mem_map_of_mem hid
    obtain ⟨u, -, hu⟩ := List.mem_map.1 hmem
    rw [contains_eq, ← hu, Option.isSome_some]
  · intro h
    obtain ⟨utxos, rest, hspend⟩ := exists_spend h.once h.each
    exact ⟨(utxos, rest), hspend⟩

/-- What is spent leaves the set, and nothing else does. -/
lemma get?_of_spend (h : s.spend ids = .ok (utxos, rest)) (o : OutPoint) (u : Utxo) :
    rest.get? o = some u ↔ s.get? o = some u ∧ o ∉ ids := by
  obtain ⟨-, -, hrest⟩ := of_spend_eq_ok h
  rw [hrest]
  by_cases ho : o ∈ ids
  · simp [ho]
  · simp [ho]

theorem spend_eq_ok_iff :
    s.spend ids = .ok (utxos, rest) ↔
      s.Names true ids ∧ utxos.map some = ids.map s.get? ∧
        ∀ o u, rest.get? o = some u ↔ s.get? o = some u ∧ o ∉ ids := by
  constructor
  · intro h
    obtain ⟨-, hfound, -⟩ := of_spend_eq_ok h
    exact ⟨exists_spend_iff.1 ⟨_, h⟩, hfound.symm, get?_of_spend h⟩
  · rintro ⟨hnames, hfound, hrest⟩
    obtain ⟨⟨given, left⟩, h⟩ := exists_spend_iff.2 hnames
    obtain ⟨-, hgiven, -⟩ := of_spend_eq_ok h
    have hsame : given = utxos := by
      apply List.map_injective_iff.2 (Option.some_injective Utxo)
      rw [← hgiven, hfound]
    have hset : left = rest := by
      apply ext_get?
      intro o u
      rw [get?_of_spend h, hrest]
    rw [h, hsame, hset]

theorem spend_eq_error_iff {refusal : Refusal} :
    s.spend ids = .error refusal ↔ ¬s.Names true ids ∧ refusal = .invalidInput :=
  (refusesOnly_spend s ids).eq_error_iff exists_spend_iff

/-! ### Each undoes the other -/

/-- Every output is filed under its own outpoint. -/
def Filed (s : UtxoSet) : Prop := ∀ o u, s.get? o = some u → u.outpoint = o

lemma Filed.receive (hs : s.Filed) (h : s.receive utxos = .ok s') : s'.Filed := by
  intro o u hu
  rcases (get?_of_receive h o u).1 hu with hold | ⟨-, ho⟩
  · exact hs o u hold
  · exact ho

lemma Filed.spend (hs : s.Filed) (h : s.spend ids = .ok (utxos, rest)) : rest.Filed := by
  obtain ⟨-, -, hrest⟩ := spend_eq_ok_iff.1 h
  intro o u hu
  exact hs o u ((hrest o u).1 hu).1

lemma Filed.outpoints_of_spend (hs : s.Filed) (h : s.spend ids = .ok (utxos, rest)) :
    utxos.map (·.outpoint) = ids := by
  induction ids generalizing s utxos with
  | nil =>
    cases h
    rfl
  | cons id ids ih =>
    simp only [UtxoSet.spend, Outcome.bind_eq_ok_iff, Outcome.ofOption_eq_ok_iff,
      Outcome.pure_eq_ok_iff] at h
    obtain ⟨u, hu, ⟨others, left⟩, hothers, h⟩ := h
    cases h
    have herased : Filed ⟨s.outputs.erase id⟩ := by
      intro o v hv
      rw [get?_erase] at hv
      split at hv
      · cases hv
      · exact hs o v hv
    rw [List.map_cons, ih herased hothers, hs id u hu]

/-- What was spent can be received again, in any order, and the set is what it was. -/
theorem Filed.receive_of_spend (hs : s.Filed) {back : List Utxo}
    (h : s.spend ids = .ok (utxos, rest)) (hback : back.Perm utxos) :
    rest.receive back = .ok s := by
  have hids := hs.outpoints_of_spend h
  obtain ⟨hnames, hfound, hrest⟩ := spend_eq_ok_iff.1 h
  have hbackIds : (back.map (·.outpoint)).Perm ids := hids ▸ hback.map (·.outpoint)
  rw [receive_eq_ok_iff]
  refine ⟨⟨hbackIds.nodup_iff.2 hnames.once, ?_⟩, ?_⟩
  · intro id hid
    rw [← get?_eq_none_iff, Option.eq_none_iff_forall_not_mem]
    intro u hu
    exact ((hrest id u).1 hu).2 (hbackIds.mem_iff.1 hid)
  · intro o u
    rw [hrest, hback.mem_iff]
    have hgiven : u ∈ utxos ↔ ∃ id ∈ ids, s.get? id = some u := by
      have hmem : some u ∈ utxos.map some ↔ some u ∈ ids.map s.get? := by rw [hfound]
      simpa using hmem
    rw [hgiven]
    constructor
    · intro hu
      by_cases ho : o ∈ ids
      · exact .inr ⟨⟨o, ho, hu⟩, hs o u hu⟩
      · exact .inl ⟨hu, ho⟩
    · rintro (⟨hu, -⟩ | ⟨⟨id, -, hid⟩, ho⟩)
      · exact hu
      · rw [← ho, hs id u hid]
        exact hid

/-- What was received can be spent again, in any order, and the set is what it was. -/
theorem spend_of_receive (h : s.receive utxos = .ok s')
    (hids : ids.Perm (utxos.map (·.outpoint))) :
    ∃ given, given.Perm utxos ∧ s'.spend ids = .ok (given, s) := by
  obtain ⟨hnames, hget⟩ := receive_eq_ok_iff.1 h
  have hfound : ∀ u ∈ utxos, s'.get? u.outpoint = some u := by
    intro u hu
    exact (hget u.outpoint u).2 (.inr ⟨hu, rfl⟩)
  have howned : ∀ id ∈ ids, s'.contains id = true := by
    intro id hid
    obtain ⟨u, hu, rfl⟩ := List.mem_map.1 (hids.mem_iff.1 hid)
    rw [contains_eq, hfound u hu, Option.isSome_some]
  obtain ⟨given, left, hspend⟩ := exists_spend (hids.nodup_iff.2 hnames.once) howned
  obtain ⟨-, hgiven, hleft⟩ := spend_eq_ok_iff.1 hspend
  have hsame : left = s := by
    apply ext_get?
    intro o u
    rw [hleft, hget, hids.mem_iff]
    constructor
    · rintro ⟨hold | ⟨hu, rfl⟩, ho⟩
      · exact hold
      · exact absurd (List.mem_map_of_mem hu) ho
    · intro hu
      refine ⟨.inl hu, ?_⟩
      intro ho
      have hfree := hnames.each o ho
      rw [contains_eq, hu] at hfree
      cases hfree
  have hperm : (given.map some).Perm (utxos.map some) := by
    have hall : (utxos.map (·.outpoint)).map s'.get? = utxos.map some := by
      rw [List.map_map]
      exact List.map_congr_left hfound
    rw [hgiven, ← hall]
    exact hids.map s'.get?
  refine ⟨given, ?_, hsame ▸ hspend⟩
  simpa [List.filterMap_map, Function.comp_def] using hperm.filterMap id

/-- The outputs are listed in the order of their outpoints. -/
lemma Filed.ascending (hs : s.Filed) :
    s.toList.Pairwise fun u v => u.outpoint.Before v.outpoint := by
  have hfiled : ∀ e ∈ s.outputs.entries, e.2.outpoint = e.1 := by
    intro e he
    exact hs e.1 e.2 (SortedMap.get?_eq_some_iff.2 he)
  rw [toList, SortedMap.values, List.pairwise_map]
  apply s.outputs.ascending.imp_of_mem
  intro a b ha hb hbefore
  rw [hfiled a ha, hfiled b hb]
  exact OutPoint.before_iff.1 hbefore

/-! ### Sets changed in place -/

/-- Changes a set step by step. What was changed before a refusal stays changed. -/
abbrev InPlace := EStateM Refusal UtxoSet

namespace InPlace

variable {α : Type}

/-- Checks outpoints one by one: whether the set owns them is to be as `owned` says, and none may be
among those that were `seen` before it. -/
def check (owned : Bool) (seen : List OutPoint) : List OutPoint → InPlace Unit
  | [] => return
  | id :: ids => do
    if (← get).contains id ≠ owned ∨ id ∈ seen then throw .invalidInput
    else check owned (id :: seen) ids

def insert (u : Utxo) : InPlace Unit := modify fun s => ⟨s.outputs.insert u.outpoint u⟩

/-- Takes out the output at an outpoint, if there is one. -/
def remove (id : OutPoint) : InPlace (Option Utxo) := do
  let found := (← get).get? id
  modify fun s => ⟨s.outputs.erase id⟩
  return found

def receive (utxos : List Utxo) : InPlace Unit := do
  check false [] (utxos.map (·.outpoint))
  forM utxos insert

/-- An outpoint at which nothing is found would be passed over. -/
def spend (ids : List OutPoint) : InPlace (List Utxo) := do
  check true [] ids
  ids.filterMapM remove

lemma passes_cons_iff {owned : Bool} {id : OutPoint} {ids seen : List OutPoint} :
    (s.Names owned (id :: ids) ∧ ∀ o ∈ id :: ids, o ∉ seen) ↔
      (s.contains id = owned ∧ id ∉ seen) ∧ s.Names owned ids ∧ ∀ o ∈ ids, o ∉ id :: seen := by
  constructor
  · rintro ⟨hnames, hseen⟩
    obtain ⟨hid, hnodup⟩ := List.nodup_cons.1 hnames.once
    obtain ⟨howned, hothers⟩ := List.forall_mem_cons.1 hnames.each
    obtain ⟨hnew, hunseen⟩ := List.forall_mem_cons.1 hseen
    refine ⟨⟨howned, hnew⟩, ⟨hnodup, hothers⟩, ?_⟩
    intro o ho
    rw [List.mem_cons, not_or]
    exact ⟨ne_of_mem_of_not_mem ho hid, hunseen o ho⟩
  · rintro ⟨⟨howned, hnew⟩, hnames, hseen⟩
    have hid : id ∉ ids := fun hmem => hseen id hmem List.mem_cons_self
    constructor
    · exact ⟨List.nodup_cons.2 ⟨hid, hnames.once⟩, List.forall_mem_cons.2 ⟨howned, hnames.each⟩⟩
    · rw [List.forall_mem_cons]
      refine ⟨hnew, ?_⟩
      intro o ho hmem
      exact hseen o ho (List.mem_cons_of_mem id hmem)

/-- The check changes nothing, and passes just where each outpoint is as it should be and none is
seen twice. -/
lemma run_check (owned : Bool) (seen ids : List OutPoint) (s : UtxoSet) :
    (check owned seen ids).run s =
      if s.Names owned ids ∧ ∀ id ∈ ids, id ∉ seen then EStateM.Result.ok () s
      else .error .invalidInput s := by
  induction ids generalizing seen with
  | nil =>
    rw [if_pos ⟨⟨List.nodup_nil, by simp⟩, by simp⟩]
    rfl
  | cons id ids ih =>
    have hstep : (check owned seen (id :: ids)).run s =
        if s.contains id ≠ owned ∨ id ∈ seen then .error .invalidInput s
        else (check owned (id :: seen) ids).run s := by
      rw [check, EStateM.run_bind, EStateM.run_get]
      dsimp only
      split_ifs
      · rfl
      · rfl
    rw [hstep, ih]
    by_cases hfails : s.contains id ≠ owned ∨ id ∈ seen
    · rw [if_pos hfails, if_neg]
      rw [passes_cons_iff]
      rintro ⟨⟨howned, hnew⟩, -⟩
      exact hfails.elim (absurd howned) hnew
    · obtain ⟨howned, hnew⟩ := not_or.1 hfails
      rw [if_neg hfails]
      apply if_congr _ rfl rfl
      rw [passes_cons_iff]
      exact (and_iff_right ⟨not_not.1 howned, hnew⟩).symm

lemma run_insertAll (h : s.receive utxos = .ok s') : (forM utxos insert).run s = .ok () s' := by
  induction utxos generalizing s with
  | nil =>
    cases h
    rfl
  | cons u utxos ih =>
    rw [receive_cons, Outcome.bind_eq_ok_iff] at h
    obtain ⟨next, hnext, hrest⟩ := h
    unfold add at hnext
    split at hnext
    · cases hnext
    · cases hnext
      rw [List.forM_cons, EStateM.run_bind]
      exact ih hrest

lemma run_removeAll (h : s.spend ids = .ok (utxos, rest)) :
    (ids.filterMapM remove).run s = .ok utxos rest := by
  induction ids generalizing s utxos with
  | nil =>
    cases h
    rfl
  | cons id ids ih =>
    simp only [UtxoSet.spend, Outcome.bind_eq_ok_iff, Outcome.ofOption_eq_ok_iff,
      Outcome.pure_eq_ok_iff] at h
    obtain ⟨u, hu, ⟨others, left⟩, hothers, h⟩ := h
    cases h
    have hremove : (remove id).run s = .ok (some u) ⟨s.outputs.erase id⟩ := by
      rw [← hu]
      rfl
    rw [List.filterMapM_cons, EStateM.run_bind, hremove]
    dsimp only
    rw [EStateM.run_bind, ih hothers]
    rfl

/-- What a call answers and leaves that changes nothing before it is refused. -/
def settle (s : UtxoSet) : Outcome (α × UtxoSet) → EStateM.Result Refusal UtxoSet α
  | .ok (answer, s') => .ok answer s'
  | .error refusal => .error refusal s

theorem run_receive (utxos : List Utxo) (s : UtxoSet) :
    (receive utxos).run s = settle s ((s.receive utxos).map fun s' => ((), s')) := by
  have hcheck := run_check false [] (utxos.map (·.outpoint)) s
  cases h : s.receive utxos with
  | ok s' =>
    have hnames := (receive_eq_ok_iff.1 h).1
    rw [if_pos ⟨hnames, by simp⟩] at hcheck
    rw [receive, EStateM.run_bind, hcheck]
    exact run_insertAll h
  | error cause =>
    obtain ⟨hnames, rfl⟩ := receive_eq_error_iff.1 h
    rw [if_neg fun hpasses => hnames hpasses.1] at hcheck
    rw [receive, EStateM.run_bind, hcheck]
    rfl

theorem run_spend (ids : List OutPoint) (s : UtxoSet) :
    (spend ids).run s = settle s (s.spend ids) := by
  have hcheck := run_check true [] ids s
  cases h : s.spend ids with
  | ok answer =>
    have hnames := (spend_eq_ok_iff.1 h).1
    rw [if_pos ⟨hnames, by simp⟩] at hcheck
    rw [spend, EStateM.run_bind, hcheck]
    exact run_removeAll h
  | error cause =>
    obtain ⟨hnames, rfl⟩ := spend_eq_error_iff.1 h
    rw [if_neg fun hpasses => hnames hpasses.1] at hcheck
    rw [spend, EStateM.run_bind, hcheck]
    rfl

/-- The set that a call leaves, whether it was refused or not. -/
def left : EStateM.Result Refusal UtxoSet α → UtxoSet
  | .ok _ s => s
  | .error _ s => s

end InPlace

/-! ### Sets that calls build -/

inductive Call
  | receive (utxos : List Utxo)
  | spend (ids : List OutPoint)

def Call.leave (s : UtxoSet) : Call → UtxoSet
  | .receive utxos => InPlace.left ((InPlace.receive utxos).run s)
  | .spend ids => InPlace.left ((InPlace.spend ids).run s)

/-- The set after some calls in place, of which any may have been refused. -/
def after (calls : List Call) : UtxoSet := calls.foldl Call.leave empty

lemma Filed.leave (hs : s.Filed) (call : Call) : (call.leave s).Filed := by
  cases call with
  | receive utxos =>
    rw [Call.leave, InPlace.run_receive]
    cases h : s.receive utxos with
    | ok s' => exact hs.receive h
    | error refusal => exact hs
  | spend ids =>
    rw [Call.leave, InPlace.run_spend]
    cases h : s.spend ids with
    | ok answer => exact hs.spend h
    | error refusal => exact hs

lemma filed_after (calls : List Call) : (after calls).Filed := by
  induction calls using List.reverseRecOn with
  | nil =>
    intro o u hu
    cases hu
  | append_singleton calls call ih =>
    rw [after, List.foldl_concat]
    exact ih.leave call

/-- The laws of a set that outputs are taken into and given out of. -/
structure Lawful (s : UtxoSet) : Prop where
  received : ∀ utxos s', s.receive utxos = .ok s' ↔
    s.Names false (utxos.map (·.outpoint)) ∧
      ∀ o u, s'.get? o = some u ↔ s.get? o = some u ∨ u ∈ utxos ∧ u.outpoint = o
  receiveRefused : ∀ utxos refusal, s.receive utxos = .error refusal ↔
    ¬s.Names false (utxos.map (·.outpoint)) ∧ refusal = .invalidInput
  spent : ∀ ids utxos rest, s.spend ids = .ok (utxos, rest) ↔
    s.Names true ids ∧ utxos.map some = ids.map s.get? ∧
      ∀ o u, rest.get? o = some u ↔ s.get? o = some u ∧ o ∉ ids
  spendRefused : ∀ ids refusal, s.spend ids = .error refusal ↔
    ¬s.Names true ids ∧ refusal = .invalidInput
  /-- In place, a call that is accepted changes the set to the same, and one that is refused leaves
  it as it was. -/
  receivedInPlace : ∀ utxos, (InPlace.receive utxos).run s =
    InPlace.settle s ((s.receive utxos).map fun s' => ((), s'))
  spentInPlace : ∀ ids, (InPlace.spend ids).run s = InPlace.settle s (s.spend ids)
  restored : ∀ ids utxos rest back, s.spend ids = .ok (utxos, rest) → back.Perm utxos →
    rest.receive back = .ok s
  returned : ∀ utxos s' ids, s.receive utxos = .ok s' → ids.Perm (utxos.map (·.outpoint)) →
    ∃ given, given.Perm utxos ∧ s'.spend ids = .ok (given, s)
  ascending : s.toList.Pairwise fun u v => u.outpoint.Before v.outpoint

lemma Filed.lawful (hs : s.Filed) : s.Lawful where
  received _ _ := receive_eq_ok_iff
  receiveRefused _ _ := receive_eq_error_iff
  spent _ _ _ := spend_eq_ok_iff
  spendRefused _ _ := spend_eq_error_iff
  receivedInPlace utxos := InPlace.run_receive utxos s
  spentInPlace ids := InPlace.run_spend ids s
  restored _ _ _ _ hspend hback := hs.receive_of_spend hspend hback
  returned _ _ _ hreceive hids := spend_of_receive hreceive hids
  ascending := hs.ascending

/-- Every set that calls can build, accepted or refused, is lawful. -/
theorem lawful_after (calls : List Call) : (after calls).Lawful := (filed_after calls).lawful

/-- A call that names an output twice is refused, and the output can be spent afterwards. -/
example :
    let o : OutPoint := ⟨⟨.take 32 [7]⟩, 0#32⟩
    let u : Utxo := ⟨o, 100#64, none⟩
    let s := after [.receive [u], .receive [⟨⟨⟨.take 32 [9]⟩, 0#32⟩, 5#64, none⟩, u], .spend [o, o]]
    s.toList = [u] ∧ s.spend [o] = .ok ([u], empty) := by
  decide +kernel

end UtxoSet

end RuneSettlement
