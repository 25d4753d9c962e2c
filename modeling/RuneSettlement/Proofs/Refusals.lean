import Mathlib.Tactic.Lemma
import RuneSettlement.Refusal

/-!
# What an outcome is refused for

`Outcome.RefusesOnly` says that all causes an outcome can be refused for have some property. It
passes through every way of putting outcomes together, so what a check is refused for is read off
its steps.
-/

namespace RuneSettlement.Outcome

variable {α β : Type} {P Q : Refusal → Prop}

/-- If the outcome is refused, the cause has the property. -/
def RefusesOnly (x : Outcome α) (P : Refusal → Prop) : Prop :=
  ∀ refusal, x = .error refusal → P refusal

@[simp] lemma refusesOnly_ok (a : α) : RefusesOnly (.ok a) P := by
  intro refusal h
  cases h

@[simp] lemma refusesOnly_pure (a : α) : RefusesOnly (pure a) P := refusesOnly_ok a

@[simp] lemma refusesOnly_error_iff {refusal : Refusal} :
    RefusesOnly (.error refusal : Outcome α) P ↔ P refusal := by
  simp [RefusesOnly]

@[simp] lemma refusesOnly_bind_iff {x : Outcome α} {f : α → Outcome β} :
    (x >>= f).RefusesOnly P ↔ x.RefusesOnly P ∧ ∀ a, x = .ok a → (f a).RefusesOnly P := by
  cases x with
  | error refusal => simp [bind, Except.bind]
  | ok a => simp [bind, Except.bind]

@[simp] lemma refusesOnly_map_iff {x : Outcome α} {f : α → β} :
    (f <$> x).RefusesOnly P ↔ x.RefusesOnly P := by
  cases x with
  | error refusal => exact refusesOnly_error_iff.trans refusesOnly_error_iff.symm
  | ok a => exact iff_of_true (refusesOnly_ok (f a)) (refusesOnly_ok a)

@[simp] lemma refusesOnly_ofOption_iff {refusal : Refusal} {x : Option α} :
    (ofOption refusal x).RefusesOnly P ↔ (x = none → P refusal) := by
  cases x <;> simp [ofOption]

@[simp] lemma refusesOnly_ite_iff {c : Prop} [Decidable c] {x y : Outcome α} :
    (if c then x else y).RefusesOnly P ↔ (c → x.RefusesOnly P) ∧ (¬c → y.RefusesOnly P) := by
  by_cases hc : c <;> simp [hc]

lemma RefusesOnly.mono {x : Outcome α} (h : x.RefusesOnly P)
    (hPQ : ∀ refusal, P refusal → Q refusal) : x.RefusesOnly Q :=
  fun refusal hx => hPQ refusal (h refusal hx)

/-- What has one refusal only is refused just where it is not accepted. -/
lemma RefusesOnly.eq_error_iff {x : Outcome α} {cause refusal : Refusal} {accepts : Prop}
    (honly : x.RefusesOnly (· = cause)) (haccepts : (∃ a, x = .ok a) ↔ accepts) :
    x = .error refusal ↔ ¬accepts ∧ refusal = cause := by
  rw [← haccepts]
  cases x with
  | ok a => simp
  | error other =>
    obtain rfl := honly other rfl
    simp [eq_comm]

lemma refusesOnly_of_exists {x : Outcome α} (h : ∃ a, x = .ok a) : x.RefusesOnly P := by
  obtain ⟨a, rfl⟩ := h
  exact refusesOnly_ok a

lemma refusesOnly_foldlM {f : β → α → Outcome β} (hf : ∀ b a, (f b a).RefusesOnly P) (b : β)
    (as : List α) : (as.foldlM f b).RefusesOnly P := by
  induction as generalizing b with
  | nil => simp
  | cons a as ih => simp [List.foldlM_cons, hf, ih]

lemma refusesOnly_mapM {f : α → Outcome β} (hf : ∀ a, (f a).RefusesOnly P) (as : List α) :
    (as.mapM f).RefusesOnly P := by
  induction as with
  | nil => simp
  | cons a as ih => simp [List.mapM_cons, hf, ih]

lemma refusesOnly_forM {f : α → Outcome Unit} (hf : ∀ a, (f a).RefusesOnly P) (as : List α) :
    (forM as f).RefusesOnly P := by
  induction as with
  | nil => simp
  | cons a as ih => simp [hf, ih]

end RuneSettlement.Outcome
