import RuneSettlement.Utxo

/-!
# Sets of unspent outputs

The outputs a pool owns, in outpoint order. `receive` and `spend` take all the outputs they name or
none. `reserves` sums the set up.
-/

namespace RuneSettlement

structure UtxoSet where
  outputs : SortedMap OutPoint Utxo
  deriving DecidableEq

namespace UtxoSet

def empty : UtxoSet := ⟨.empty⟩

def get? (s : UtxoSet) (id : OutPoint) : Option Utxo := s.outputs.get? id

def contains (s : UtxoSet) (id : OutPoint) : Bool := s.outputs.contains id

def toList (s : UtxoSet) : List Utxo := s.outputs.values

def size (s : UtxoSet) : Nat := s.outputs.size

def isEmpty (s : UtxoSet) : Bool := s.outputs.isEmpty

/-- Adds one output, refused where its outpoint is taken. -/
def add (s : UtxoSet) (u : Utxo) : Outcome UtxoSet :=
  if s.contains u.outpoint then .error .invalidInput else .ok ⟨s.outputs.insert u.outpoint u⟩

/-- Adds outputs, refused where an outpoint is taken or repeated. -/
def receive (s : UtxoSet) (utxos : List Utxo) : Outcome UtxoSet := utxos.foldlM add s

/-- Removes the named outputs and gives them in the order of their names, refused where a name is
absent or repeated. -/
def spend (s : UtxoSet) : List OutPoint → Outcome (List Utxo × UtxoSet)
  | [] => .ok ([], s)
  | id :: ids => do
    let utxo ← Outcome.ofOption .invalidInput (s.get? id)
    let (utxos, rest) ← spend ⟨s.outputs.erase id⟩ ids
    return (utxo :: utxos, rest)

def reserves (s : UtxoSet) : Outcome Reserves := s.toList.foldlM (fun r u => u.addTo r) .empty

@[simp] theorem get?_empty (o : OutPoint) : empty.get? o = none := rfl

theorem isEmpty_iff {s : UtxoSet} : s.isEmpty = true ↔ s = empty := by
  obtain ⟨outputs⟩ := s
  rw [isEmpty, SortedMap.isEmpty_iff, empty, mk.injEq]

theorem receive_cons (s : UtxoSet) (u : Utxo) (utxos : List Utxo) :
    s.receive (u :: utxos) = s.add u >>= fun s => s.receive utxos := by
  rw [receive, List.foldlM_cons]
  rfl

theorem add_eq_ok_iff {s s' : UtxoSet} {u : Utxo} :
    s.add u = .ok s' ↔
      s.get? u.outpoint = none ∧
        ∀ o, s'.get? o = if u.outpoint = o then some u else s.get? o := by
  unfold add
  by_cases h : (s.get? u.outpoint).isSome
  · have hc : s.contains u.outpoint = true := h
    simp only [hc, if_true, reduceCtorEq, false_iff]
    rintro ⟨hn, -⟩
    simp [hn] at h
  · have hc : s.contains u.outpoint = false := by simpa [contains, SortedMap.contains, get?] using h
    have hn : s.get? u.outpoint = none := by simpa using h
    simp only [hc, hn, true_and]
    constructor
    · rintro h o
      cases h
      by_cases ho : u.outpoint = o
      · simp [get?, ho, SortedMap.get?_insert]
      · simp [get?, ho, SortedMap.get?_insert]
    · intro h
      simp only [Bool.false_eq_true, if_false, Except.ok.injEq]
      obtain ⟨m⟩ := s'
      congr 1
      refine SortedMap.ext_get? fun o => ?_
      rw [SortedMap.get?_insert]
      have := h o
      by_cases ho : u.outpoint = o
      · simpa [get?, ho] using this.symm
      · simpa [get?, ho] using this.symm

/-- Two outputs may be added in either order. -/
theorem add_add_comm (s : UtxoSet) (u v : Utxo) :
    (s.add u >>= fun s => s.add v) = s.add v >>= fun s => s.add u := by
  have hadd : ∀ u v : Utxo, (s.add u >>= fun s => s.add v) =
      if s.contains u.outpoint ∨ s.contains v.outpoint ∨ u.outpoint = v.outpoint then
        .error .invalidInput
      else .ok ⟨(s.outputs.insert u.outpoint u).insert v.outpoint v⟩ := by
    intro u v
    by_cases hu : s.contains u.outpoint
    · rw [if_pos (.inl hu), add, if_pos hu]
      rfl
    · have hcontains : contains ⟨s.outputs.insert u.outpoint u⟩ v.outpoint = true ↔
          s.contains v.outpoint ∨ u.outpoint = v.outpoint := by
        rw [contains, SortedMap.contains, SortedMap.get?_insert]
        by_cases hsame : u.outpoint = v.outpoint
        · simp [hsame]
        · simp [hsame, contains, SortedMap.contains]
      rw [add, if_neg hu]
      change add ⟨s.outputs.insert u.outpoint u⟩ v = _
      simp only [add, hcontains, hu, false_or, Bool.false_eq_true]
  rw [hadd, hadd]
  by_cases hsame : u.outpoint = v.outpoint
  · rw [if_pos (.inr (.inr hsame)), if_pos (.inr (.inr hsame.symm))]
  · rw [SortedMap.insert_comm _ _ _ hsame]
    simp only [or_left_comm, eq_comm]

/-- The order in which outputs are received does not matter. -/
theorem receive_perm {utxos utxos' : List Utxo} (h : utxos.Perm utxos') (s : UtxoSet) :
    s.receive utxos = s.receive utxos' := by
  induction h generalizing s with
  | nil => rfl
  | cons u _ ih => simp only [receive_cons, ih]
  | swap u v utxos =>
    have hcomm := congrArg (fun x => x >>= fun s => s.receive utxos) (s.add_add_comm v u)
    simpa only [receive_cons, bind_assoc] using hcomm
  | trans _ _ ih ih' => rw [ih, ih']

theorem get?_erase (s : UtxoSet) (id o : OutPoint) :
    get? ⟨s.outputs.erase id⟩ o = if id = o then none else s.get? o := by
  by_cases h : id = o <;> simp [get?, h, SortedMap.get?_erase]

/-- Outputs are spent where each is named once, and exactly these are gone afterwards. -/
theorem of_spend_eq_ok {s rest : UtxoSet} {ids : List OutPoint} {utxos : List Utxo}
    (h : s.spend ids = .ok (utxos, rest)) :
    ids.Nodup ∧ ids.map s.get? = utxos.map some ∧
      ∀ o, rest.get? o = if o ∈ ids then none else s.get? o := by
  induction ids generalizing s utxos with
  | nil =>
    cases h
    simp
  | cons id ids ih =>
    simp only [spend, Outcome.bind_eq_ok_iff, Outcome.ofOption_eq_ok_iff, Outcome.pure_eq_ok_iff]
      at h
    obtain ⟨u, hu, ⟨us, r⟩, hs, h⟩ := h
    cases h
    obtain ⟨hnd, hmap, hget⟩ := ih hs
    have hid : id ∉ ids := fun hmem => by
      have := hmap ▸ List.mem_map_of_mem hmem
      simp [get?_erase] at this
    refine ⟨List.nodup_cons.2 ⟨hid, hnd⟩, ?_, fun o => ?_⟩
    · rw [List.map_cons, List.map_cons, hu, ← hmap]
      congr 1
      refine List.map_congr_left fun o ho => ?_
      rw [get?_erase, if_neg]
      rintro rfl
      exact hid ho
    · rw [hget, get?_erase]
      by_cases ho : id = o
      · simp [ho]
      · simp [ho, Ne.symm ho]

/-- Outputs are received where no outpoint is taken or repeated, and are added to the others. -/
theorem of_receive_eq_ok {s s' : UtxoSet} {utxos : List Utxo} (h : s.receive utxos = .ok s') :
    (utxos.map (·.outpoint)).Nodup ∧ (∀ u ∈ utxos, s.get? u.outpoint = none) ∧
      ∀ o, s'.get? o = (utxos.find? fun u => decide (u.outpoint = o)).or (s.get? o) := by
  induction utxos generalizing s with
  | nil =>
    cases h
    simp
  | cons u utxos ih =>
    rw [receive_cons, Outcome.bind_eq_ok_iff] at h
    obtain ⟨next, hadd, hrest⟩ := h
    obtain ⟨hfree, hnext⟩ := add_eq_ok_iff.1 hadd
    obtain ⟨hnodup, hothers, hget⟩ := ih hrest
    have hapart : ∀ v ∈ utxos, v.outpoint ≠ u.outpoint := by
      intro v hv hsame
      have htaken := hothers v hv
      rw [hnext, hsame, if_pos rfl] at htaken
      cases htaken
    refine ⟨?_, ?_, ?_⟩
    · rw [List.map_cons, List.nodup_cons]
      refine ⟨?_, hnodup⟩
      intro hmem
      obtain ⟨v, hv, hsame⟩ := List.mem_map.1 hmem
      exact hapart v hv hsame
    · intro v hv
      rcases List.mem_cons.1 hv with rfl | hv
      · exact hfree
      · have htaken := hothers v hv
        rwa [hnext, if_neg (hapart v hv).symm] at htaken
    · intro o
      rw [hget, hnext, List.find?_cons]
      by_cases ho : u.outpoint = o
      · have hnone : utxos.find? (fun v => decide (v.outpoint = o)) = none := by
          rw [List.find?_eq_none]
          intro v hv
          simpa [← ho] using hapart v hv
        simp [ho, hnone]
      · simp [ho]

end UtxoSet

end RuneSettlement
