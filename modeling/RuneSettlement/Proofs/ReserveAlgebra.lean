import Mathlib.Tactic.SplitIfs
import RuneSettlement.Proofs.CanonicalReserves
import RuneSettlement.Proofs.Refusals

/-!
# The algebra of reserves

Reserves that are built up from nothing by credits, debits and merges are canonical and hold, of
every asset, exactly what was credited less what was debited (`Reserves.Built.exact`). So the order
of the calls is immaterial, a debit undoes a credit, and a call is refused exactly when the exact
result would leave the range of its asset. `Reserves.InPlace` has the same calls as changes to
reserves in place, where a refused call could have changed something before its refusal.
-/

namespace RuneSettlement.Reserves

variable {r r' : Reserves} {coin : Coin} {refusal : Refusal}

/-! ### Refusals -/

/-- Why a credit beyond the limit is refused: a native value that is no native amount is refused
before it is added. -/
def creditRefusal (coin : Coin) : Refusal :=
  if coin.id = .native ∧ Word.greatest 64 < coin.value.toNat then .beyondSats coin.value
  else .overflow

lemma eq_creditRefusal_of_credit (h : r.credit coin = .error refusal) :
    refusal = creditRefusal coin := by
  by_cases hwide : coin.id = .native ∧ Word.greatest 64 < coin.value.toNat
  · obtain ⟨hid, hvalue⟩ := hwide
    have hnone : Quantity.narrow? coin.value = none := Word.ofNat?_eq_none_iff.2 hvalue
    rw [credit, if_pos hid, Quantity.toSats, hnone] at h
    cases h
    rw [creditRefusal, if_pos ⟨hid, hvalue⟩]
  · rw [creditRefusal, if_neg hwide]
    exact eq_overflow_of_credit (fun hid => Nat.not_lt.1 fun hvalue => hwide ⟨hid, hvalue⟩) h

/-- A credit is refused exactly when the sum is beyond what can be held of the asset. -/
theorem credit_eq_error_iff :
    r.credit coin = .error refusal ↔
      limit coin.id < (r.amountOf coin.id).toNat + coin.value.toNat ∧
        refusal = creditRefusal coin := by
  constructor
  · intro h
    refine ⟨?_, eq_creditRefusal_of_credit h⟩
    by_contra hfits
    obtain ⟨r', hr'⟩ := exists_credit_eq_ok (Nat.not_lt.1 hfits)
    rw [hr'] at h
    cases h
  · rintro ⟨hbeyond, rfl⟩
    cases h : r.credit coin with
    | error cause => rw [eq_creditRefusal_of_credit h]
    | ok r' =>
      have hsum := toNat_amountOf_credit h coin.id
      have hfits := r'.toNat_amountOf_le_limit coin.id
      rw [if_pos rfl] at hsum
      omega

lemma refusesOnly_debit (r : Reserves) (coin : Coin) :
    (r.debit coin).RefusesOnly (· = .insufficientFunds) := by
  simp [debit, Quantity.sub]

/-- A debit is refused exactly when it asks for more than is held. -/
theorem debit_eq_error_iff :
    r.debit coin = .error refusal ↔
      (r.amountOf coin.id).toNat < coin.value.toNat ∧ refusal = .insufficientFunds := by
  constructor
  · intro h
    refine ⟨?_, refusesOnly_debit r coin refusal h⟩
    by_contra hcovered
    obtain ⟨r', hr'⟩ := exists_debit_eq_ok (Nat.not_lt.1 hcovered)
    rw [hr'] at h
    cases h
  · rintro ⟨hshort, rfl⟩
    cases h : r.debit coin with
    | error cause => rw [refusesOnly_debit r coin cause h]
    | ok r' =>
      have hdifference := toNat_amountOf_debit h coin.id
      rw [if_pos rfl] at hdifference
      omega

/-- A debit takes a credit back, and leaves no entry where there was none. -/
theorem debit_of_credit (hr : r.Canonical) (h : r.credit coin = .ok r') :
    r'.debit coin = .ok r := by
  have hsum := toNat_amountOf_credit h
  obtain ⟨left, hleft⟩ : ∃ left, r'.debit coin = .ok left := by
    apply exists_debit_eq_ok
    rw [hsum, if_pos rfl]
    exact Nat.le_add_left _ _
  have hsame : left = r := by
    apply ext_amountOf ((hr.credit h).debit hleft) hr
    intro id
    have hdifference := toNat_amountOf_debit hleft id
    rw [hsum] at hdifference
    omega
  rw [hleft, hsame]

/-! ### Histories -/

/-- Reserves built from nothing, with the coins credited to them and those debited from them. What
is merged in comes with its own history. -/
inductive Built : Reserves → List Coin → List Coin → Prop
  | empty : Built .empty [] []
  | credit {r r' : Reserves} {credits debits : List Coin} {coin : Coin}
      (built : Built r credits debits) (accepted : r.credit coin = .ok r') :
      Built r' (coin :: credits) debits
  | debit {r r' : Reserves} {credits debits : List Coin} {coin : Coin}
      (built : Built r credits debits) (accepted : r.debit coin = .ok r') :
      Built r' credits (coin :: debits)
  | merge {r other r' : Reserves} {credits debits credits' debits' : List Coin}
      (built : Built r credits debits) (otherBuilt : Built other credits' debits')
      (accepted : r.merge other = .ok r') : Built r' (credits' ++ credits) (debits' ++ debits)

section Built

variable {credits debits : List Coin}

lemma Built.canonical (h : Built r credits debits) : r.Canonical := by
  induction h with
  | empty => exact canonical_empty
  | credit _ accepted ih => exact ih.credit accepted
  | debit _ accepted ih => exact ih.debit accepted
  | merge _ _ accepted ih _ => exact ih.merge accepted

lemma Built.toNat_amountOf_add (h : Built r credits debits) (id : CoinId) :
    (r.amountOf id).toNat + Coin.total debits id = Coin.total credits id := by
  induction h with
  | empty => simp
  | credit _ accepted ih =>
    rw [toNat_amountOf_credit accepted, Coin.total_cons]
    omega
  | debit _ accepted ih =>
    have hdifference := toNat_amountOf_debit accepted id
    rw [Coin.total_cons]
    omega
  | merge _ otherBuilt accepted ih ihOther =>
    rw [toNat_amountOf_merge otherBuilt.canonical accepted, Coin.total_append, Coin.total_append]
    omega

/-- Of every asset reserves hold what was credited less what was debited. -/
theorem Built.exact (h : Built r credits debits) (id : CoinId) :
    ((r.amountOf id).toNat : Int) = Coin.total credits id - Coin.total debits id := by
  have hsum := h.toNat_amountOf_add id
  omega

end Built

/-! ### Sequences of calls -/

inductive Call
  | credit (coin : Coin)
  | debit (coin : Coin)
  | merge (other : Reserves)

namespace Call

def perform (r : Reserves) : Call → Outcome Reserves
  | .credit coin => r.credit coin
  | .debit coin => r.debit coin
  | .merge other => r.merge other

def credits : Call → List Coin
  | .credit coin => [coin]
  | .debit _ => []
  | .merge other => other.coins

def debits : Call → List Coin
  | .credit _ => []
  | .debit coin => [coin]
  | .merge _ => []

lemma canonical_perform {call : Call} (hr : r.Canonical) (h : call.perform r = .ok r') :
    r'.Canonical := by
  cases call with
  | credit coin => exact hr.credit h
  | debit coin => exact hr.debit h
  | merge other => exact hr.merge h

lemma toNat_amountOf_perform {call : Call} (h : call.perform r = .ok r') (id : CoinId) :
    (r'.amountOf id).toNat + Coin.total call.debits id =
      (r.amountOf id).toNat + Coin.total call.credits id := by
  cases call with
  | credit coin => simp [debits, credits, toNat_amountOf_credit h]
  | debit coin => simpa [debits, credits] using toNat_amountOf_debit h id
  | merge other => simp [debits, credits, toNat_amountOf_creditAll h]

end Call

/-- The calls in their order, up to the first that is refused. -/
def performAll (r : Reserves) (calls : List Call) : Outcome Reserves :=
  calls.foldlM Call.perform r

lemma performAll_cons_eq_ok_iff {call : Call} {calls : List Call} :
    r.performAll (call :: calls) = .ok r' ↔
      ∃ next, call.perform r = .ok next ∧ next.performAll calls = .ok r' := by
  rw [performAll, List.foldlM_cons, Outcome.bind_eq_ok_iff]
  rfl

lemma Canonical.performAll {calls : List Call} (hr : r.Canonical)
    (h : r.performAll calls = .ok r') : r'.Canonical := by
  induction calls generalizing r with
  | nil =>
    cases h
    exact hr
  | cons call calls ih =>
    obtain ⟨next, hnext, hrest⟩ := performAll_cons_eq_ok_iff.1 h
    exact ih (Call.canonical_perform hr hnext) hrest

lemma toNat_amountOf_performAll {calls : List Call} (h : r.performAll calls = .ok r')
    (id : CoinId) :
    (r'.amountOf id).toNat + Coin.total (calls.flatMap Call.debits) id =
      (r.amountOf id).toNat + Coin.total (calls.flatMap Call.credits) id := by
  induction calls generalizing r with
  | nil =>
    cases h
    rfl
  | cons call calls ih =>
    obtain ⟨next, hnext, hrest⟩ := performAll_cons_eq_ok_iff.1 h
    have hfirst := Call.toNat_amountOf_perform hnext id
    have hothers := ih hrest
    rw [List.flatMap_cons, List.flatMap_cons, Coin.total_append, Coin.total_append]
    omega

/-- The same calls in two orders, neither of them refused, come to the same. -/
theorem performAll_perm {calls calls' : List Call} {a b : Reserves} (hr : r.Canonical)
    (hperm : calls.Perm calls') (ha : r.performAll calls = .ok a)
    (hb : r.performAll calls' = .ok b) : a = b := by
  apply ext_amountOf (hr.performAll ha) (hr.performAll hb)
  intro id
  have hsum := toNat_amountOf_performAll ha id
  have hother := toNat_amountOf_performAll hb id
  rw [Coin.total_perm (hperm.flatMap_right Call.debits),
    Coin.total_perm (hperm.flatMap_right Call.credits)] at hsum
  omega

/-! ### Reserves changed in place -/

/-- Changes reserves step by step. What was changed before a refusal stays changed. -/
abbrev InPlace := EStateM Refusal Reserves

namespace InPlace

def check {α : Type} : Outcome α → InPlace α
  | .ok a => pure a
  | .error refusal => throw refusal

def credit (coin : Coin) : InPlace Unit := do
  if coin.id = .native then
    let sats ← check (Quantity.toSats coin.value)
    let native ← check (Quantity.add (← get).native sats)
    modify fun r => { r with native }
  else if coin.value = 0#128 then
    return
  else
    let amount ← check (Quantity.add ((← get).amountOf coin.id) coin.value)
    modify fun r => { r with tokens := r.tokens.insert coin.id amount }

def debit (coin : Coin) : InPlace Unit := do
  if coin.id = .native then
    let sats ← check (Outcome.ofOption .insufficientFunds (Quantity.narrow? coin.value))
    let native ← check (Quantity.sub (← get).native sats)
    modify fun r => { r with native }
  else
    let amount ← check (Quantity.sub ((← get).amountOf coin.id) coin.value)
    if amount = 0#128 then modify fun r => { r with tokens := r.tokens.erase coin.id }
    else modify fun r => { r with tokens := r.tokens.insert coin.id amount }

/-- What a call that changes nothing but by its last step answers and leaves, given its outcome. -/
def settle (r : Reserves) : Outcome Reserves → EStateM.Result Refusal Reserves Unit
  | .ok r' => .ok () r'
  | .error refusal => .error refusal r

lemma settle_eq_error_iff {outcome : Outcome Reserves} {left : Reserves} :
    settle r outcome = .error refusal left ↔ outcome = .error refusal ∧ left = r := by
  cases outcome with
  | ok r' => simp [settle]
  | error cause => simp [settle, eq_comm]

lemma run_check_bind {α : Type} {x : Outcome α} {f : α → InPlace Unit}
    {g : α → Outcome Reserves} (h : ∀ a, (f a).run r = settle r (g a)) :
    (check x >>= f).run r = settle r (x >>= g) := by
  cases x with
  | ok a => exact h a
  | error refusal => rfl

theorem run_credit (coin : Coin) (r : Reserves) :
    (credit coin).run r = settle r (r.credit coin) := by
  unfold credit Reserves.credit
  split_ifs
  · refine run_check_bind fun sats => ?_
    rw [EStateM.run_bind, EStateM.run_get]
    exact run_check_bind fun native => rfl
  · rfl
  · rw [EStateM.run_bind, EStateM.run_get]
    exact run_check_bind fun amount => rfl

theorem run_debit (coin : Coin) (r : Reserves) :
    (debit coin).run r = settle r (r.debit coin) := by
  unfold debit Reserves.debit
  split_ifs
  · refine run_check_bind fun sats => ?_
    rw [EStateM.run_bind, EStateM.run_get]
    exact run_check_bind fun native => rfl
  · rw [EStateM.run_bind, EStateM.run_get]
    refine run_check_bind fun amount => ?_
    by_cases hzero : amount = 0#128
    · rw [if_pos hzero, if_pos hzero]
      rfl
    · rw [if_neg hzero, if_neg hzero]
      rfl

end InPlace

/-- The laws of reserves with some credits and debits behind them. -/
structure Lawful (r : Reserves) (credits debits : List Coin) : Prop where
  canonical : r.Canonical
  exact : ∀ id, ((r.amountOf id).toNat : Int) = Coin.total credits id - Coin.total debits id
  determined : ∀ s credits' debits', Built s credits' debits' →
    (∀ id, r.amountOf id = s.amountOf id) → r = s
  creditRefused : ∀ coin refusal, r.credit coin = .error refusal ↔
    limit coin.id < (r.amountOf coin.id).toNat + coin.value.toNat ∧ refusal = creditRefusal coin
  debitRefused : ∀ coin refusal, r.debit coin = .error refusal ↔
    (r.amountOf coin.id).toNat < coin.value.toNat ∧ refusal = .insufficientFunds
  creditKeeps : ∀ coin refusal left, (InPlace.credit coin).run r = .error refusal left ↔
    r.credit coin = .error refusal ∧ left = r
  debitKeeps : ∀ coin refusal left, (InPlace.debit coin).run r = .error refusal left ↔
    r.debit coin = .error refusal ∧ left = r
  commutes : ∀ calls calls' a b, calls.Perm calls' → r.performAll calls = .ok a →
    r.performAll calls' = .ok b → a = b
  undone : ∀ coin r', r.credit coin = .ok r' → r'.debit coin = .ok r

/-- Reserves built by any credits, debits and merges are canonical and exact. -/
theorem built_lawful {r : Reserves} {credits debits : List Coin} (h : Built r credits debits) :
    r.Lawful credits debits where
  canonical := h.canonical
  exact := h.exact
  determined s _ _ hs hamounts :=
    ext_amountOf h.canonical hs.canonical fun id => congrArg BitVec.toNat (hamounts id)
  creditRefused _ _ := credit_eq_error_iff
  debitRefused _ _ := debit_eq_error_iff
  creditKeeps coin refusal left := by rw [InPlace.run_credit, InPlace.settle_eq_error_iff]
  debitKeeps coin refusal left := by rw [InPlace.run_debit, InPlace.settle_eq_error_iff]
  commutes _ _ _ _ hperm ha hb := performAll_perm h.canonical hperm ha hb
  undone _ _ haccepted := debit_of_credit h.canonical haccepted

/-- A token that is credited, merged in again and debited is gone, and what remains is lawful. -/
theorem built_lawful_sample :
    let token : CoinId := .rune 840000#64 1#32
    let held : Reserves := ⟨10#64, .empty⟩
    Built held [⟨token, 5#128⟩, Coin.native 10#64, ⟨token, 5#128⟩] [⟨token, 10#128⟩] ∧
      held.Lawful [⟨token, 5#128⟩, Coin.native 10#64, ⟨token, 5#128⟩] [⟨token, 10#128⟩] := by
  intro token held
  have hfirst : Built ⟨0#64, SortedMap.empty.insert token 5#128⟩ [⟨token, 5#128⟩] [] :=
    .credit .empty (by decide +kernel)
  have hfunded : Built ⟨10#64, SortedMap.empty.insert token 5#128⟩
      [Coin.native 10#64, ⟨token, 5#128⟩] [] :=
    .credit hfirst (by decide +kernel)
  have hmerged : Built ⟨10#64, SortedMap.empty.insert token 10#128⟩
      [⟨token, 5#128⟩, Coin.native 10#64, ⟨token, 5#128⟩] [] :=
    .merge hfunded hfirst (by decide +kernel)
  have hheld : Built held [⟨token, 5#128⟩, Coin.native 10#64, ⟨token, 5#128⟩] [⟨token, 10#128⟩] :=
    .debit hmerged (by decide +kernel)
  exact ⟨hheld, built_lawful hheld⟩

end RuneSettlement.Reserves
