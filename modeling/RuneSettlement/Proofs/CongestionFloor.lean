import RuneSettlement.Proofs.Balance

/-!
# The congestion floor and the queue

The length of the queue touches a plan in one place only: a plan with a native value is held against
the floor at that length (`Rules.plan_eq`). The floor is exact and rises with the queue until it is
clamped, so a plan that is accepted stays accepted, with nothing in it changed, wherever the floor
is no higher, and elsewhere there is one cause to refuse it for.
-/

namespace RuneSettlement

namespace FeeFloor

variable (floor : FeeFloor) {queueLength other : BitVec 32}

/-- Two caps, one on the rise and one on the sum, are one cap on the exact floor. -/
theorem toNat_minimal (queueLength : BitVec 32) :
    (floor.minimal queueLength).toNat =
      min (2 ^ 64 - 1)
        (floor.base.toNat + floor.step.toNat * min queueLength.toNat floor.maxDepth.toNat) := by
  have hgreatest : Word.greatest 64 = 2 ^ 64 - 1 := by
    rw [Word.greatest, BitVec.toNat_allOnes]
  rw [minimal, Word.toNat_ofNatCapped, Word.toNat_ofNatCapped, hgreatest]
  generalize floor.step.toNat * min queueLength.toNat floor.maxDepth.toNat = rise
  omega

/-- The floor depends on the queue through its clamped length only, and rises with it. -/
lemma minimal_le_of_clamped
    (h : min other.toNat floor.maxDepth.toNat ≤ min queueLength.toNat floor.maxDepth.toNat) :
    (floor.minimal other).toNat ≤ (floor.minimal queueLength).toNat := by
  have hrise := Nat.mul_le_mul_left floor.step.toNat h
  rw [toNat_minimal, toNat_minimal]
  omega

lemma minimal_mono (h : other.toNat ≤ queueLength.toNat) :
    (floor.minimal other).toNat ≤ (floor.minimal queueLength).toNat :=
  floor.minimal_le_of_clamped (by omega)

/-- From the greatest depth on the floor is as high as it gets. -/
lemma minimal_le_of_maxDepth_le (h : floor.maxDepth.toNat ≤ queueLength.toNat)
    (other : BitVec 32) : (floor.minimal other).toNat ≤ (floor.minimal queueLength).toNat :=
  floor.minimal_le_of_clamped (by omega)

/-- A transaction with no native value is not held against the floor. -/
def Admits (value : Sats) (queueLength : BitVec 32) : Prop :=
  value = 0#64 ∨ (floor.minimal queueLength).toNat ≤ value.toNat

instance (value : Sats) (queueLength : BitVec 32) : Decidable (floor.Admits value queueLength) :=
  inferInstanceAs (Decidable (_ ∨ _))

variable {floor}

lemma Admits.of_le {value : Sats} (h : floor.Admits value queueLength)
    (hle : (floor.minimal other).toNat ≤ (floor.minimal queueLength).toNat) :
    floor.Admits value other :=
  h.imp_right hle.trans

/-- A value is held against the floor unless it is nothing. -/
lemma check_of_ne_zero {α : Type} (value : Sats) (a : α) :
    (if value ≠ 0#64 then floor.check value queueLength >>= fun _ => (pure a : Outcome α)
      else pure a) =
      if floor.Admits value queueLength then .ok a else .error .belowFloor := by
  by_cases hzero : value = 0#64
  · rw [if_neg (not_not.2 hzero), if_pos (.inl hzero)]
    rfl
  · by_cases hbelow : value.toNat < (floor.minimal queueLength).toNat
    · have hrefused : ¬floor.Admits value queueLength := not_or.2 ⟨hzero, not_le.2 hbelow⟩
      rw [if_pos hzero, if_neg hrefused, check, if_pos hbelow]
      rfl
    · rw [if_pos hzero, if_pos (.inr (not_lt.1 hbelow)), check, if_neg hbelow]
      rfl

end FeeFloor

namespace Rules

variable (rules : Rules) (registry : Registry) (set : IntentionSet) (index : BitVec 32)

/-- The same rules with no floor. -/
def unfloored : Rules := { rules with floor := ⟨0#64, 0#64, 0#32⟩ }

/-- The plan of an intention whatever the queue, before any floor. -/
def draft : Outcome Plan := rules.unfloored.plan registry set index 0#32

/-- A plan is the draft, if the floor admits its native value. -/
theorem plan_eq (queueLength : BitVec 32) :
    rules.plan registry set index queueLength = (do
      let plan ← rules.draft registry set index
      if rules.floor.Admits plan.nativeValue queueLength then .ok plan
      else .error .belowFloor) := by
  have hjudge : rules.unfloored.judge = rules.judge := rfl
  simp only [draft, plan, hjudge, bind_assoc]
  refine bind_congr fun i => bind_congr ?_
  rintro ⟨action, pool⟩
  refine bind_congr fun inflow => bind_congr fun outflow => bind_congr fun post =>
    bind_congr fun staged => ?_
  -- The draft meets its own floor at any value, so its last step answers with the plan.
  have hunfloored : ∀ value, rules.unfloored.floor.Admits value 0#32 := fun value =>
    .inr (Nat.zero_le _)
  rw [FeeFloor.check_of_ne_zero, FeeFloor.check_of_ne_zero, if_pos (hunfloored _)]
  rfl

/-- What the acceptance of an intention at one queue length says of its plan at every other. -/
structure Tightens (queueLength : BitVec 32) (plan : Plan) : Prop where
  lower : ∀ other, (rules.floor.minimal other).toNat ≤ (rules.floor.minimal queueLength).toNat →
    rules.plan registry set index other = .ok plan
  shorter : ∀ other, other.toNat ≤ queueLength.toNat →
    rules.plan registry set index other = .ok plan
  clamped : rules.floor.maxDepth.toNat ≤ queueLength.toNat →
    ∀ other, rules.plan registry set index other = .ok plan
  free : plan.nativeValue = 0#64 → ∀ other, rules.plan registry set index other = .ok plan
  refused : ∀ other refusal, rules.plan registry set index other = .error refusal →
    refusal = .belowFloor ∧ plan.nativeValue.toNat < (rules.floor.minimal other).toNat

variable {rules registry set index}

/-- An accepted intention is accepted wherever the floor admits its value, with the same plan. -/
lemma plan_of_admits {queueLength : BitVec 32} {plan : Plan}
    (h : rules.plan registry set index queueLength = .ok plan) :
    rules.floor.Admits plan.nativeValue queueLength ∧
      ∀ other, rules.plan registry set index other =
        if rules.floor.Admits plan.nativeValue other then .ok plan else .error .belowFloor := by
  rw [plan_eq, Outcome.bind_eq_ok_iff] at h
  obtain ⟨draft, hdraft, hchecked⟩ := h
  split at hchecked
  case isFalse => cases hchecked
  case isTrue hadmits =>
    cases hchecked
    refine ⟨hadmits, fun other => ?_⟩
    rw [plan_eq, hdraft]
    rfl

/-- The floor is the clamp of the exact sum, and it only ever tightens with the queue. -/
theorem floor_only_tightens :
    (∀ (floor : FeeFloor) (queueLength : BitVec 32), (floor.minimal queueLength).toNat =
      min (2 ^ 64 - 1)
        (floor.base.toNat + floor.step.toNat * min queueLength.toNat floor.maxDepth.toNat)) ∧
    ∀ (rules : Rules) (registry : Registry) (set : IntentionSet) (index queueLength : BitVec 32)
      (plan : Plan), rules.plan registry set index queueLength = .ok plan →
        rules.Tightens registry set index queueLength plan := by
  refine ⟨FeeFloor.toNat_minimal, fun rules registry set index queueLength plan h => ?_⟩
  obtain ⟨hadmits, hplan⟩ := plan_of_admits h
  have hlower : ∀ other,
      (rules.floor.minimal other).toNat ≤ (rules.floor.minimal queueLength).toNat →
      rules.plan registry set index other = .ok plan := by
    intro other hle
    rw [hplan, if_pos (hadmits.of_le hle)]
  exact {
    lower := hlower
    shorter := fun other hle => hlower other (rules.floor.minimal_mono hle)
    clamped := fun hdepth other => hlower other (rules.floor.minimal_le_of_maxDepth_le hdepth other)
    free := fun hzero other => by rw [hplan, if_pos (.inl hzero)]
    refused := by
      intro other refusal hrefused
      rw [hplan] at hrefused
      split at hrefused
      case isTrue => cases hrefused
      case isFalse hbelow =>
        cases hrefused
        exact ⟨rfl, not_le.1 (not_or.1 hbelow).2⟩ }

theorem floor_only_tightens_sample :
    let rules : Rules := { Settlement.Sample.rules with floor := ⟨10#64, 20#64, 4#32⟩ }
    let s := (Settlement.create rules (.create 0#64 0#128) 10).after
      (Settlement.Sample.staging.take 2)
    let set : IntentionSet := ⟨"trader", [Settlement.Sample.swap]⟩
    ∃ plan, rules.plan s.registry set 0#32 2#32 = .ok plan ∧
      rules.Tightens s.registry set 0#32 2#32 plan ∧
      rules.plan s.registry set 0#32 3#32 = .error .belowFloor := by
  intro rules s set
  have haccepted : (rules.plan s.registry set 0#32 2#32).isOk = true := by decide +kernel
  obtain ⟨plan, hplan⟩ := Outcome.exists_eq_ok_of_isOk haccepted
  exact ⟨plan, hplan, floor_only_tightens.2 rules s.registry set 0#32 2#32 plan hplan,
    by decide +kernel⟩

end Rules

end RuneSettlement
