import RuneSettlement.Key

/-!
# Maps in key order

A `SortedMap` lists its entries in strictly ascending key order, so two maps with the same values at
all keys are equal (`SortedMap.ext_get?`).
-/

namespace RuneSettlement

/-- A finite map that lists its entries in strictly ascending key order. -/
structure SortedMap (κ α : Type) [Key κ] where
  entries : List (κ × α)
  ascending : entries.Pairwise fun a b => Key.before a.1 b.1 = true

namespace SortedMap

variable {κ α : Type} [Key κ]

instance [DecidableEq κ] [DecidableEq α] : DecidableEq (SortedMap κ α) := fun a b =>
  decidable_of_iff (a.entries = b.entries) (by cases a; cases b; simp)

def empty : SortedMap κ α := ⟨[], .nil⟩

instance : Inhabited (SortedMap κ α) := ⟨empty⟩

def keys (m : SortedMap κ α) : List κ := m.entries.map (·.1)

def values (m : SortedMap κ α) : List α := m.entries.map (·.2)

def size (m : SortedMap κ α) : Nat := m.entries.length

def isEmpty (m : SortedMap κ α) : Bool := m.entries.isEmpty

def get? (m : SortedMap κ α) (k : κ) : Option α :=
  (m.entries.find? fun e => Key.same e.1 k).map (·.2)

def contains (m : SortedMap κ α) (k : κ) : Bool := (m.get? k).isSome

def insertEntry (k : κ) (v : α) : List (κ × α) → List (κ × α)
  | [] => [(k, v)]
  | e :: rest =>
    if Key.before e.1 k then e :: insertEntry k v rest
    else if Key.before k e.1 then (k, v) :: e :: rest
    else (k, v) :: rest

theorem mem_insertEntry {k : κ} {v : α} {es : List (κ × α)} {e : κ × α}
    (h : e ∈ insertEntry k v es) : e = (k, v) ∨ e ∈ es := by
  induction es with
  | nil => simpa [insertEntry] using h
  | cons e' es ih =>
    unfold insertEntry at h
    split at h
    · rcases List.mem_cons.1 h with rfl | h
      · simp
      · rcases ih h with h | h <;> simp [h]
    · split at h <;> simp only [List.mem_cons] at h ⊢
      · exact h
      · rcases h with h | h <;> simp [h]

theorem pairwise_insertEntry (k : κ) (v : α) {es : List (κ × α)}
    (h : es.Pairwise fun a b => Key.before a.1 b.1 = true) :
    (insertEntry k v es).Pairwise fun a b => Key.before a.1 b.1 = true := by
  induction es with
  | nil => simp [insertEntry]
  | cons e es ih =>
    obtain ⟨he, hes⟩ := List.pairwise_cons.1 h
    unfold insertEntry
    split
    · next hek =>
      refine List.pairwise_cons.2 ⟨fun x hx => ?_, ih hes⟩
      rcases mem_insertEntry hx with rfl | hx
      · exact hek
      · exact he x hx
    · next hek =>
      split
      · next hke =>
        refine List.pairwise_cons.2 ⟨fun x hx => ?_, h⟩
        rcases List.mem_cons.1 hx with rfl | hx
        · exact hke
        · exact Key.before_trans hke (he x hx)
      · next hke =>
        have hk : e.1 = k := by
          rcases Key.before_trichotomy e.1 k with h | h | h
          · exact absurd h hek
          · exact h
          · exact absurd h hke
        exact List.pairwise_cons.2 ⟨fun x hx => hk ▸ he x hx, hes⟩

/-- Puts `v` at `k`, in place of the value there if there is one. -/
def insert (m : SortedMap κ α) (k : κ) (v : α) : SortedMap κ α :=
  ⟨insertEntry k v m.entries, pairwise_insertEntry k v m.ascending⟩

def erase (m : SortedMap κ α) (k : κ) : SortedMap κ α :=
  ⟨m.entries.filter fun e => !Key.same e.1 k, m.ascending.filter _⟩

/-- The entries whose keys lie strictly beyond `k`. -/
def beyond (m : SortedMap κ α) (k : κ) : List (κ × α) := m.entries.filter fun e => Key.before k e.1

/-- The map of a list of pairs; of several pairs with one key the last counts. -/
def ofList (pairs : List (κ × α)) : SortedMap κ α :=
  pairs.foldl (fun m e => m.insert e.1 e.2) empty

@[simp] theorem get?_empty (k : κ) : (empty : SortedMap κ α).get? k = none := rfl

theorem get?_eq_some_iff {m : SortedMap κ α} {k : κ} {v : α} :
    m.get? k = some v ↔ (k, v) ∈ m.entries := by
  obtain ⟨es, h⟩ := m
  simp only [get?]
  induction es with
  | nil => simp
  | cons e es ih =>
    obtain ⟨he, hes⟩ := List.pairwise_cons.1 h
    by_cases hk : e.1 = k
    · have : Key.same e.1 k = true := Key.same_iff.2 hk
      simp only [List.find?_cons, this, Option.map_some, Option.some.injEq, List.mem_cons]
      refine ⟨fun hv => .inl (by rw [← hk, ← hv]), fun hv => ?_⟩
      rcases hv with hv | hv
      · rw [← hv]
      · exact absurd (hk ▸ rfl) (Key.ne_of_before (hk ▸ he _ hv))
    · have : Key.same e.1 k = false := Bool.eq_false_iff.2 (mt Key.same_iff.1 hk)
      simp only [List.find?_cons, this, List.mem_cons]
      rw [ih hes]
      refine ⟨.inr, fun hv => hv.resolve_left fun h => hk (by rw [← h])⟩

theorem mem_insertEntry_iff {k : κ} {v : α} {es : List (κ × α)}
    (h : es.Pairwise fun a b => Key.before a.1 b.1 = true) {e : κ × α} :
    e ∈ insertEntry k v es ↔ e = (k, v) ∨ (e ∈ es ∧ e.1 ≠ k) := by
  induction es with
  | nil => simp [insertEntry]
  | cons e' es ih =>
    obtain ⟨he, hes⟩ := List.pairwise_cons.1 h
    unfold insertEntry
    split
    · next hek =>
      simp only [List.mem_cons, ih hes]
      constructor
      · rintro (rfl | rfl | ⟨h1, h2⟩)
        · exact .inr ⟨.inl rfl, Key.ne_of_before hek⟩
        · exact .inl rfl
        · exact .inr ⟨.inr h1, h2⟩
      · rintro (rfl | ⟨rfl | h1, h2⟩)
        · exact .inr (.inl rfl)
        · exact .inl rfl
        · exact .inr (.inr ⟨h1, h2⟩)
    · next hek =>
      split
      · next hke =>
        simp only [List.mem_cons]
        constructor
        · rintro (rfl | rfl | h1)
          · exact .inl rfl
          · exact .inr ⟨.inl rfl, (Key.ne_of_before hke).symm⟩
          · exact .inr ⟨.inr h1, (Key.ne_of_before (Key.before_trans hke (he _ h1))).symm⟩
        · rintro (rfl | ⟨h1, -⟩)
          · exact .inl rfl
          · exact .inr h1
      · next hke =>
        have hk : e'.1 = k := by
          rcases Key.before_trichotomy e'.1 k with h | h | h
          · exact absurd h hek
          · exact h
          · exact absurd h hke
        simp only [List.mem_cons]
        constructor
        · rintro (rfl | h1)
          · exact .inl rfl
          · exact .inr ⟨.inr h1, hk ▸ (Key.ne_of_before (he _ h1)).symm⟩
        · rintro (rfl | ⟨rfl | h1, h2⟩)
          · exact .inl rfl
          · exact absurd hk h2
          · exact .inr h1

theorem get?_insert (m : SortedMap κ α) (k k' : κ) (v : α) :
    (m.insert k v).get? k' = if Key.same k k' then some v else m.get? k' := by
  apply Option.ext
  intro w
  rw [get?_eq_some_iff]
  simp only [insert, mem_insertEntry_iff m.ascending, Prod.mk.injEq]
  split
  · next h =>
    obtain rfl := Key.same_iff.1 h
    simp [eq_comm]
  · next h =>
    have h : k ≠ k' := mt Key.same_iff.2 h
    rw [get?_eq_some_iff]
    exact ⟨fun hw => hw.elim (fun hw => absurd hw.1.symm h) (·.1), fun hw => .inr ⟨hw, h.symm⟩⟩

theorem get?_erase (m : SortedMap κ α) (k k' : κ) :
    (m.erase k).get? k' = if Key.same k k' then none else m.get? k' := by
  apply Option.ext
  intro w
  rw [get?_eq_some_iff]
  simp only [erase, List.mem_filter, Bool.not_eq_true', ← Bool.not_eq_true, Key.same_iff]
  split
  · next h =>
    obtain rfl := Key.same_iff.1 h
    simp
  · next h =>
    have h : k ≠ k' := mt Key.same_iff.2 h
    rw [get?_eq_some_iff]
    exact ⟨(·.1), fun hw => ⟨hw, h.symm⟩⟩

theorem eq_of_ascending {es fs : List (κ × α)}
    (he : es.Pairwise fun a b => Key.before a.1 b.1 = true)
    (hf : fs.Pairwise fun a b => Key.before a.1 b.1 = true)
    (h : ∀ e, e ∈ es ↔ e ∈ fs) : es = fs := by
  induction es generalizing fs with
  | nil =>
    cases fs with
    | nil => rfl
    | cons f fs => exact absurd ((h f).2 (by simp)) (by simp)
  | cons e es ih =>
    cases fs with
    | nil => exact absurd ((h e).1 (by simp)) (by simp)
    | cons f fs =>
      obtain ⟨he1, he2⟩ := List.pairwise_cons.1 he
      obtain ⟨hf1, hf2⟩ := List.pairwise_cons.1 hf
      have hef : e = f := by
        rcases List.mem_cons.1 ((h e).1 (by simp)) with h1 | h1
        · exact h1
        rcases List.mem_cons.1 ((h f).2 (by simp)) with h2 | h2
        · exact h2.symm
        exact absurd rfl (Key.ne_of_before (Key.before_trans (he1 f h2) (hf1 e h1)))
      subst hef
      congr 1
      refine ih he2 hf2 fun x => ⟨fun hx => ?_, fun hx => ?_⟩
      · rcases List.mem_cons.1 ((h x).1 (by simp [hx])) with rfl | h1
        · exact absurd rfl (Key.ne_of_before (he1 x hx))
        · exact h1
      · rcases List.mem_cons.1 ((h x).2 (by simp [hx])) with rfl | h1
        · exact absurd rfl (Key.ne_of_before (hf1 x hx))
        · exact h1

theorem perm_insertEntry {k : κ} (v : α) {es : List (κ × α)} (h : ∀ e ∈ es, e.1 ≠ k) :
    (insertEntry k v es).Perm ((k, v) :: es) := by
  induction es with
  | nil => exact .refl _
  | cons e es ih =>
    unfold insertEntry
    split
    · exact ((ih fun x hx => h x (List.mem_cons_of_mem e hx)).cons e).trans (.swap (k, v) e es)
    · next hek =>
      split
      · exact .refl _
      · next hke =>
        rcases Key.before_trichotomy e.1 k with hb | heq | hb
        · exact absurd hb hek
        · exact absurd heq (h e List.mem_cons_self)
        · exact absurd hb hke

theorem perm_entries_insert {m : SortedMap κ α} {k : κ} (v : α) (h : m.get? k = none) :
    (m.insert k v).entries.Perm ((k, v) :: m.entries) := by
  apply perm_insertEntry
  intro e he hk
  have : m.get? k = some e.2 := get?_eq_some_iff.2 (hk ▸ he)
  simp [h] at this

theorem perm_values_insert {m : SortedMap κ α} {k : κ} (v : α) (h : m.get? k = none) :
    (m.insert k v).values.Perm (v :: m.values) :=
  (perm_entries_insert v h).map Prod.snd

theorem mem_values_iff {m : SortedMap κ α} {v : α} : v ∈ m.values ↔ ∃ k, m.get? k = some v := by
  simp [values, get?_eq_some_iff]

/-- A map is determined by its values at all keys. -/
theorem ext_get? {m n : SortedMap κ α} (h : ∀ k, m.get? k = n.get? k) : m = n := by
  obtain ⟨es, he⟩ := m
  obtain ⟨fs, hf⟩ := n
  congr 1
  refine eq_of_ascending he hf fun e => ?_
  have := h e.1
  rw [Option.ext_iff] at this
  simpa [get?_eq_some_iff] using this e.2

theorem isEmpty_iff {m : SortedMap κ α} : m.isEmpty = true ↔ m = empty := by
  obtain ⟨entries, ascending⟩ := m
  simp [isEmpty, empty]

theorem insert_comm (m : SortedMap κ α) {k l : κ} (v w : α) (h : k ≠ l) :
    (m.insert k v).insert l w = (m.insert l w).insert k v := by
  apply ext_get?
  intro o
  simp only [get?_insert]
  by_cases hk : Key.same k o = true
  · have hl : ¬Key.same l o = true := by
      intro hl
      exact h ((Key.same_iff.1 hk).trans (Key.same_iff.1 hl).symm)
    rw [if_neg hl, if_pos hk, if_pos hk]
  · rw [if_neg hk, if_neg hk]

theorem insert_erase (m : SortedMap κ α) (k : κ) (v : α) :
    (m.erase k).insert k v = m.insert k v := by
  apply ext_get?
  intro k'
  rw [get?_insert, get?_insert, get?_erase]
  split <;> rfl

theorem insert_of_get? {m : SortedMap κ α} {k : κ} {v : α} (h : m.get? k = some v) :
    m.insert k v = m := by
  apply ext_get?
  intro k'
  rw [get?_insert]
  split
  · next hk => rw [← Key.same_iff.1 hk, h]
  · rfl

theorem get?_insert_self (m : SortedMap κ α) (k : κ) (v : α) : (m.insert k v).get? k = some v := by
  rw [get?_insert, if_pos (Key.same_iff.2 rfl)]

theorem get?_erase_self (m : SortedMap κ α) (k : κ) : (m.erase k).get? k = none := by
  rw [get?_erase, if_pos (Key.same_iff.2 rfl)]

theorem erase_of_get? {m : SortedMap κ α} {k : κ} (h : m.get? k = none) : m.erase k = m := by
  apply ext_get?
  intro k'
  rw [get?_erase]
  split
  · next hk => rw [← Key.same_iff.1 hk, h]
  · rfl

theorem perm_entries_erase {m : SortedMap κ α} {k : κ} {v : α} (h : m.get? k = some v) :
    m.entries.Perm ((k, v) :: (m.erase k).entries) := by
  have hperm := perm_entries_insert v (get?_erase_self m k)
  rw [insert_erase, insert_of_get? h] at hperm
  exact hperm

theorem nodup_keys (m : SortedMap κ α) : m.keys.Nodup :=
  List.pairwise_map.2 (m.ascending.imp Key.ne_of_before)

end SortedMap

end RuneSettlement
