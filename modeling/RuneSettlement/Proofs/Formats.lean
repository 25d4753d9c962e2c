import RuneSettlement.CoinId
import RuneSettlement.Json.Format
import RuneSettlement.Proofs.JsonText

/-!
# Faithful formats

A rune of block 0 cannot be written: its text is that of the native coin, or names nothing. A format
is faithful if it reads back what it writes for a value without such a rune, and reads no value with
one. Then every value that it reads is read back as well (`read?_write`, `yields_read?`). The
format of lists, of optional values and of records is faithful if the formats of their parts are.
-/

namespace RuneSettlement

/-! ### Reading one part after another -/

/-- Whether everything that a reader may come up with has a property. -/
def Yields {α : Type} (x : Option α) (P : α → Prop) : Prop := ∀ a, x = some a → P a

section Reading

variable {α β : Type} {x : Option α} {f : α → Option β} {P : α → Prop} {Q : β → Prop}

lemma bind_eq_some {a : α} {b : β} (hx : x = some a) (hf : f a = some b) :
    (x >>= f) = some b := by
  rw [hx]
  exact hf

lemma Yields.bind (hx : Yields x P) (hf : ∀ a, P a → Yields (f a) Q) : Yields (x >>= f) Q := by
  intro b hb
  obtain ⟨a, ha, hab⟩ := Option.bind_eq_some_iff.1 hb
  exact hf a (hx a ha) b hab

/-- Where nothing need be known of the first part. -/
lemma yields_bind (hf : ∀ a, Yields (f a) Q) : Yields (x >>= f) Q :=
  Yields.bind (P := fun _ => True) (fun _ _ => trivial) fun a _ => hf a

lemma yields_some {a : α} (h : P a) : Yields (some a) P := fun _ hb => Option.some.inj hb ▸ h

lemma yields_none : Yields none P := nofun

lemma mapM_eq_some_map {g : α → β} {items : List α} (h : ∀ a ∈ items, f a = some (g a)) :
    items.mapM f = some (items.map g) := by
  induction items with
  | nil => rfl
  | cons a items ih =>
    obtain ⟨ha, hitems⟩ := List.forall_mem_cons.1 h
    rw [List.mapM_cons]
    exact bind_eq_some ha (bind_eq_some (ih hitems) rfl)

lemma yields_mapM (h : ∀ a, Yields (f a) Q) (items : List α) :
    Yields (items.mapM f) fun found => ∀ b ∈ found, Q b := by
  induction items with
  | nil => exact yields_some (List.forall_mem_nil Q)
  | cons a items ih =>
    rw [List.mapM_cons]
    exact (h a).bind fun b hb => ih.bind fun found hfound =>
      yields_some (List.forall_mem_cons.2 ⟨hb, hfound⟩)

end Reading

/-! ### Faithfulness -/

/-- Types whose values may name assets. -/
class Naming (α : Type) where
  /-- The assets that a value names. -/
  assets : α → List CoinId

/-- Whether a value names no rune of block 0. -/
def Etched {α : Type} [Naming α] (a : α) : Prop := ∀ id ∈ Naming.assets a, id.inGenesisBlock = false

open JsonFormat

/-- Formats that read back what they write, up to the assets that no text names. -/
class Faithful (α : Type) [JsonFormat α] [Naming α] : Prop where
  plain_toJson (a : α) : (toJson a).Plain
  ofJson?_toJson {a : α} (h : Etched a) : ofJson? (toJson a) = some a
  yields_ofJson? (j : Json) : Yields (ofJson? j : Option α) Etched

export Faithful (plain_toJson ofJson?_toJson yields_ofJson?)

/-- Values that are not written as null, so that their absence can be. -/
class NeverNull (α : Type) [JsonFormat α] : Prop where
  toJson_ne_null (a : α) : toJson a ≠ .null

section Faithful

variable {α : Type} [JsonFormat α] [Naming α] [Faithful α]

lemma read?_write_eq (a : α) : (read? (write a) : Option α) = ofJson? (toJson a) := by
  rw [read?, write, Json.parse?_render (plain_toJson a), Option.bind_some]

theorem read?_write {a : α} (h : Etched a) : read? (write a) = some a := by
  rw [read?_write_eq, ofJson?_toJson h]

theorem yields_read? (text : String) : Yields (read? text : Option α) Etched :=
  yields_bind yields_ofJson?

end Faithful

/-! ### Values of one text or number -/

/-- Types whose values name no assets. -/
class AssetFree (α : Type) [Naming α] : Prop where
  assets_eq_nil (a : α) : Naming.assets a = []

@[simp] lemma etched_of_assetFree {α : Type} [Naming α] [AssetFree α] (a : α) : Etched a := by
  simp [Etched, AssetFree.assets_eq_nil]

lemma yields_etched {α : Type} [Naming α] [AssetFree α] (x : Option α) : Yields x Etched :=
  fun a _ => etched_of_assetFree a

instance (w : Nat) : Naming (BitVec w) := ⟨fun _ => []⟩

instance : Naming UInt8 := ⟨fun _ => []⟩

instance : Naming String := ⟨fun _ => []⟩

instance (w : Nat) : AssetFree (BitVec w) := ⟨fun _ => rfl⟩

instance : AssetFree UInt8 := ⟨fun _ => rfl⟩

instance : AssetFree String := ⟨fun _ => rfl⟩

instance (w : Nat) : Faithful (BitVec w) where
  plain_toJson x := .natural x.toNat
  ofJson?_toJson _ := Word.ofNat?_eq_some_iff.2 rfl
  yields_ofJson? _ := yields_etched _

instance : Faithful UInt8 where
  plain_toJson b := .natural b.toNat
  ofJson?_toJson {b} _ := by simp [ofJson?, toJson, naturalOf?, b.toNat_lt]
  yields_ofJson? _ := yields_etched _

instance : Faithful String where
  plain_toJson s := .text s
  ofJson?_toJson _ := rfl
  yields_ofJson? _ := yields_etched _

instance (w : Nat) : NeverNull (BitVec w) := ⟨fun _ => nofun⟩

instance : NeverNull String := ⟨fun _ => nofun⟩

/-! ### Lists and optional values -/

section Containers

variable {α : Type} [Naming α]

instance : Naming (List α) := ⟨fun items => items.flatMap Naming.assets⟩

instance : Naming (Option α) := ⟨fun o => o.elim [] Naming.assets⟩

@[simp] lemma etched_list {items : List α} : Etched items ↔ ∀ a ∈ items, Etched a :=
  List.forall_mem_flatMap

@[simp] lemma etched_none : Etched (none : Option α) := List.forall_mem_nil _

@[simp] lemma etched_some {a : α} : Etched (some a) ↔ Etched a := Iff.rfl

instance [AssetFree α] : AssetFree (List α) :=
  ⟨fun _ => List.flatMap_eq_nil_iff.2 fun a _ => AssetFree.assets_eq_nil a⟩

instance [AssetFree α] : AssetFree (Option α) where
  assets_eq_nil
    | none => rfl
    | some a => AssetFree.assets_eq_nil a

variable [JsonFormat α] [Faithful α]

instance : Faithful (List α) where
  plain_toJson items := by
    refine .array fun j hj => ?_
    obtain ⟨a, -, rfl⟩ := List.mem_map.1 hj
    exact plain_toJson a
  ofJson?_toJson {items} h := by
    have hread : (items.map toJson).mapM ofJson? = some (items.map id) := by
      rw [List.mapM_map]
      exact mapM_eq_some_map fun a ha => ofJson?_toJson (etched_list.1 h a ha)
    rwa [List.map_id] at hread
  yields_ofJson? j := by
    refine yields_bind fun items => ?_
    exact fun found hfound => etched_list.2 (yields_mapM yields_ofJson? items found hfound)

omit [Naming α] [Faithful α] in
/-- Anything but null is read as a value that is there. -/
lemma ofJson?_option {j : Json} (hj : j ≠ .null) :
    (ofJson? j : Option (Option α)) = (ofJson? j).map some := by
  cases j <;> first | rfl | exact absurd rfl hj

instance [NeverNull α] : Faithful (Option α) where
  plain_toJson
    | none => .null
    | some a => plain_toJson a
  ofJson?_toJson {o} h := by
    cases o with
    | none => rfl
    | some a =>
      have hread : (ofJson? (toJson a) : Option (Option α)) = some (some a) := by
        rw [ofJson?_option (NeverNull.toJson_ne_null a), ofJson?_toJson (etched_some.1 h),
          Option.map_some]
      exact hread
  yields_ofJson? j := by
    by_cases hj : j = .null
    · subst hj
      exact yields_some etched_none
    · rw [ofJson?_option hj]
      intro o ho
      obtain ⟨a, ha, rfl⟩ := Option.map_eq_some_iff.1 ho
      exact etched_some.2 (yields_ofJson? j a ha)

end Containers

/-! ### Records -/

/-- The value of a field is found by its name, if no other field has it. -/
lemma field?_of_mem {fields : List (String × Json)} (hnames : (fields.map (·.1)).Nodup)
    {f : String × Json} (hf : f ∈ fields) : field? fields f.1 = some (some f.2) := by
  have hapart : fields.Pairwise fun e g => e.1 ≠ g.1 := List.pairwise_map.1 hnames
  have hfilter : (fields.filter fun g => decide (g.1 = f.1)) = [f] := by
    clear hnames
    induction fields with
    | nil => simp at hf
    | cons e fields ih =>
      obtain ⟨he, hrest⟩ := List.pairwise_cons.1 hapart
      rw [List.filter_cons]
      rcases List.mem_cons.1 hf with rfl | hf
      · rw [if_pos (decide_eq_true rfl), List.filter_eq_nil_iff.2]
        exact fun g hg => by simpa using (he g hg).symm
      · rw [if_neg (by simpa using he f hf), ih hf hrest]
  rw [field?, hfilter]

/-- A record is read as the values of its fields, in the order of their names. -/
lemma someFields?_record {names : List String} {fields : List (String × Json)}
    (hfields : fields.map (·.1) = names) (hnames : names.Nodup) :
    someFields? names (.record fields) = some (fields.map fun f => some f.2) := by
  subst hfields
  have hnamed : namedFields? (fields.map fun f => (some f.1, f.2)) = some (fields.map id) := by
    rw [namedFields?, List.mapM_map]
    exact mapM_eq_some_map fun f _ => rfl
  have hfound := mapM_eq_some_map (f := field? fields ∘ Prod.fst) fun f hf =>
    field?_of_mem hnames hf
  rw [Json.record, someFields?, hnamed, List.map_id]
  rwa [← List.mapM_map] at hfound

lemma fields?_record {names : List String} {fields : List (String × Json)}
    (hfields : fields.map (·.1) = names) (hnames : names.Nodup) :
    fields? names (.record fields) = some (fields.map fun f => some f.2) :=
  someFields?_record hfields hnames

section Fields

variable {α : Type} [JsonFormat α] [Naming α] [Faithful α]

lemma required_toJson {a : α} (h : Etched a) : required (some (toJson a)) = some a :=
  ofJson?_toJson h

lemma required_assetFree [AssetFree α] (a : α) : required (some (toJson a)) = some a :=
  required_toJson (etched_of_assetFree a)

lemma withDefault_toJson (default : α) {a : α} (h : Etched a) :
    withDefault default (some (toJson a)) = some a :=
  ofJson?_toJson h

lemma nullable_toJson [NeverNull α] {o : Option α} (h : Etched o) :
    nullable (some (toJson o)) = some o :=
  ofJson?_toJson h

lemma yields_required (field : Option Json) : Yields (required field : Option α) Etched :=
  yields_bind yields_ofJson?

lemma yields_withDefault {default : α} (h : Etched default) (field : Option Json) :
    Yields (withDefault default field) Etched := by
  cases field with
  | none => exact yields_some h
  | some j => exact yields_ofJson? j

lemma yields_nullable [NeverNull α] (field : Option Json) :
    Yields (nullable field : Option (Option α)) Etched := by
  cases field with
  | none => exact yields_some etched_none
  | some j => exact yields_ofJson? j

end Fields

end RuneSettlement
