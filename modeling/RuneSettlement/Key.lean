/-!
# Keys

A key is a value with a code, a list of numbers, and keys are ordered as their codes are
lexicographically. The order is strict and any two keys compare. Texts are ordered by their
characters, which is also the order of their UTF-8 bytes.
-/

namespace RuneSettlement

/-- The lexicographic order of lists of numbers. -/
def lexBefore : List Nat → List Nat → Bool
  | _, [] => false
  | [], _ :: _ => true
  | a :: as, b :: bs => decide (a < b) || (decide (a = b) && lexBefore as bs)

theorem lexBefore_irrefl (as : List Nat) : lexBefore as as = false := by
  induction as with
  | nil => rfl
  | cons a as ih => simp [lexBefore, ih]

theorem lexBefore_trans {as bs cs : List Nat} (hab : lexBefore as bs = true)
    (hbc : lexBefore bs cs = true) : lexBefore as cs = true := by
  induction as generalizing bs cs with
  | nil =>
    cases cs with
    | nil => cases bs <;> simp [lexBefore] at hbc
    | cons c cs => rfl
  | cons a as ih =>
    cases bs with
    | nil => simp [lexBefore] at hab
    | cons b bs =>
      cases cs with
      | nil => simp [lexBefore] at hbc
      | cons c cs =>
        simp only [lexBefore, Bool.or_eq_true, decide_eq_true_eq, Bool.and_eq_true] at hab hbc ⊢
        rcases hab with hab | ⟨rfl, hab⟩
        · rcases hbc with hbc | ⟨rfl, hbc⟩
          · exact .inl (Nat.lt_trans hab hbc)
          · exact .inl hab
        · rcases hbc with hbc | ⟨rfl, hbc⟩
          · exact .inl hbc
          · exact .inr ⟨rfl, ih hab hbc⟩

theorem lexBefore_trichotomy (as bs : List Nat) :
    lexBefore as bs = true ∨ as = bs ∨ lexBefore bs as = true := by
  induction as generalizing bs with
  | nil => cases bs <;> simp [lexBefore]
  | cons a as ih =>
    cases bs with
    | nil => simp [lexBefore]
    | cons b bs =>
      simp only [lexBefore, Bool.or_eq_true, decide_eq_true_eq, Bool.and_eq_true,
        List.cons.injEq]
      rcases Nat.lt_trichotomy a b with h | rfl | h
      · exact .inl (.inl h)
      · rcases ih bs with h | h | h
        · exact .inl (.inr ⟨rfl, h⟩)
        · exact .inr (.inl ⟨rfl, h⟩)
        · exact .inr (.inr (.inr ⟨rfl, h⟩))
      · exact .inr (.inr (.inl h))

/-- A type whose values can be keys of a map. -/
class Key (κ : Type) where
  code : κ → List Nat
  code_injective : ∀ {a b : κ}, code a = code b → a = b

namespace Key

variable {κ : Type} [Key κ]

/-- Whether `a` comes strictly before `b`. -/
def before (a b : κ) : Bool := lexBefore (code a) (code b)

def same (a b : κ) : Bool := decide (code a = code b)

@[simp] theorem same_iff {a b : κ} : same a b = true ↔ a = b := by
  simp only [same, decide_eq_true_eq]
  exact ⟨code_injective, fun h => h ▸ rfl⟩

theorem before_irrefl (a : κ) : before a a = false := lexBefore_irrefl _

theorem before_trans {a b c : κ} : before a b = true → before b c = true → before a c = true :=
  lexBefore_trans

theorem before_trichotomy (a b : κ) : before a b = true ∨ a = b ∨ before b a = true := by
  rcases lexBefore_trichotomy (code a) (code b) with h | h | h
  · exact .inl h
  · exact .inr (.inl (code_injective h))
  · exact .inr (.inr h)

theorem ne_of_before {a b : κ} (h : before a b = true) : a ≠ b := by
  rintro rfl
  simp [before_irrefl] at h

/-- The values in ascending order. -/
def sort (values : List κ) : List κ := values.mergeSort fun a b => !before b a

instance : Key String where
  code text := text.toList.map Char.toNat
  code_injective h :=
    String.toList_injective ((List.map_inj_right fun _ _ => Char.toNat_inj.1).1 h)

end Key

end RuneSettlement
