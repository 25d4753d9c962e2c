import RuneSettlement.Word

/-!
# Refusals

Why a request was refused. Each cause carries what the caller needs to retry or to report, and
`Refusal.message` is its wording. Codes group the causes: 1xx malformed input, 2xx state conflict,
3xx funds, 4xx accounts, 5xx collaborators, 9xx anything else.
-/

namespace RuneSettlement

/-- How the rune indexer rejected a call. -/
inductive RejectionCode
  | noError
  | sysFatal
  | sysTransient
  | destinationInvalid
  | canisterReject
  | canisterError
  | unknown
  deriving DecidableEq

def RejectionCode.text : RejectionCode → String
  | .noError => "NO_ERROR"
  | .sysFatal => "SYS_FATAL"
  | .sysTransient => "SYS_TRANSIENT"
  | .destinationInvalid => "DESTINATION_INVALID"
  | .canisterReject => "CANISTER_REJECT"
  | .canisterError => "CANISTER_ERROR"
  | .unknown => "UNKNOWN"

inductive Refusal
  | invalidInput
  | invalidNumeral
  | invalidPayload (reason : String)
  | invalidTxid (text : String)
  | invalidRuneId
  | staleNonce (current : Nonce)
  | poolExists
  | invalidState (reason : String)
  | nothingPending
  | poolNotFound
  | poolBusy (txid : String)
  | insufficientFunds
  | rewardsInsufficient (remaining : Amount)
  | belowFloor
  | invalidLiquidity
  | emptyPool
  | depositMismatch (expected got : String)
  | runeMismatch (first second : String)
  | overflow
  | beyondSats (value : Amount)
  | accountNotFound (account : String)
  | accountExists (account : String)
  | coolingDown (account : String) (readyAt : Timestamp)
  | withdrawPending (account : String)
  | indexerRejected (code : RejectionCode) (reason : String)
  | indexerDisagrees (reason : String)
  | keyFailure
  | other (reason : String)
  deriving DecidableEq

abbrev Outcome := Except Refusal

namespace Refusal

def message : Refusal → String
  | invalidInput => "RP_ERR_100: Invalid input"
  | invalidNumeral => "RP_ERR_101: Invalid numeric value"
  | invalidPayload reason => "RP_ERR_102: Invalid PSBT: " ++ reason
  | invalidTxid text => "RP_ERR_103: Invalid txid: " ++ text
  | invalidRuneId => "RP_ERR_104: Invalid rune id"
  | staleNonce current =>
    "RP_ERR_200: Pool state expired, current nonce " ++ current.toNat.repr
  | poolExists => "RP_ERR_201: Pool already exists"
  | invalidState reason => "RP_ERR_202: Invalid state: " ++ reason
  | nothingPending => "RP_ERR_203: Last state not found"
  | poolNotFound => "RP_ERR_204: Pool address not found"
  | poolBusy txid => "RP_ERR_205: Pool busy with pending transaction " ++ txid
  | insufficientFunds => "RP_ERR_300: Insufficient funds"
  | rewardsInsufficient remaining =>
    "RP_ERR_301: Cookie balance insufficient, remaining " ++ remaining.toNat.repr
  | belowFloor => "RP_ERR_302: Too small funds"
  | invalidLiquidity => "RP_ERR_303: Invalid liquidity"
  | emptyPool => "RP_ERR_304: Empty pool"
  | depositMismatch expected got =>
    "RP_ERR_305: Deposit rune balance incorrect: expected " ++ expected ++ ", got " ++ got
  | runeMismatch first second => "RP_ERR_306: Rune id does not match: " ++ first ++ " vs " ++ second
  | overflow => "RP_ERR_307: Arithmetic overflow"
  | beyondSats value =>
    "RP_ERR_308: Cannot convert " ++ value.toNat.repr ++ " to a native amount"
  | accountNotFound account => "RP_ERR_400: Gamer not found: " ++ account
  | accountExists account => "RP_ERR_401: Gamer already exists: " ++ account
  | coolingDown account readyAt =>
    "RP_ERR_402: Gamer " ++ account ++ " cooling down until " ++ readyAt.toNat.repr
  | withdrawPending account => "RP_ERR_403: Gamer " ++ account ++ " withdrew repeatedly"
  | indexerRejected code reason =>
    "RP_ERR_500: Rune indexer call failed (" ++ code.text ++ "): " ++ reason
  | indexerDisagrees reason => "RP_ERR_501: Rune indexer result error: " ++ reason
  | keyFailure => "RP_ERR_502: Chain key error"
  | other reason => "RP_ERR_900: " ++ reason

end Refusal

/-- The value, or the refusal that its absence stands for. -/
def Outcome.ofOption {α : Type} (refusal : Refusal) : Option α → Outcome α
  | some a => .ok a
  | none => .error refusal

@[simp] theorem Outcome.ofOption_eq_ok_iff {α : Type} {refusal : Refusal} {x : Option α} {a : α} :
    Outcome.ofOption refusal x = .ok a ↔ x = some a := by
  cases x <;> simp [Outcome.ofOption]

theorem Outcome.toOption_eq_some_iff {α : Type} {x : Outcome α} {a : α} :
    x.toOption = some a ↔ x = .ok a := by
  cases x <;> simp [Except.toOption]

theorem Outcome.exists_eq_ok_of_isOk {α : Type} {x : Outcome α} (h : x.isOk = true) :
    ∃ a, x = .ok a := by
  cases x with
  | error refusal => cases h
  | ok a => exact ⟨a, rfl⟩

theorem Outcome.pure_eq_ok_iff {α : Type} {a b : α} : (pure a : Outcome α) = .ok b ↔ a = b := by
  simp [pure, Except.pure]

theorem Outcome.bind_eq_ok_iff {α β : Type} {x : Outcome α} {f : α → Outcome β} {b : β} :
    (x >>= f) = .ok b ↔ ∃ a, x = .ok a ∧ f a = .ok b := by
  cases x <;> simp [bind, Except.bind]

theorem Outcome.bind_eq_error_iff {α β : Type} {x : Outcome α} {f : α → Outcome β}
    {refusal : Refusal} :
    (x >>= f) = .error refusal ↔ x = .error refusal ∨ ∃ a, x = .ok a ∧ f a = .error refusal := by
  cases x <;> simp [bind, Except.bind]

/-- A check that refuses where `c` holds passes where it does not. -/
theorem Outcome.unless_eq_ok_iff {α β : Type} {c : Prop} [Decidable c] {refusal : Refusal}
    {f : α → Outcome β} {x : Outcome β} {b : β} :
    (if c then Except.error refusal >>= f else x) = .ok b ↔ ¬c ∧ x = .ok b := by
  by_cases hc : c <;> simp [hc, bind, Except.bind]

theorem Outcome.unless_eq_error_iff {α β : Type} {c : Prop} [Decidable c] {refusal cause : Refusal}
    {f : α → Outcome β} {x : Outcome β} :
    (if c then Except.error refusal >>= f else x) = .error cause ↔
      c ∧ refusal = cause ∨ ¬c ∧ x = .error cause := by
  by_cases hc : c <;> simp [hc, bind, Except.bind]

theorem Outcome.when_eq_ok_iff {β : Type} {c : Prop} [Decidable c] {check : Outcome Unit}
    {x : Outcome β} {b : β} :
    (if c then check >>= fun _ => x else x) = .ok b ↔ (c → check = .ok ()) ∧ x = .ok b := by
  by_cases hc : c
  · rw [if_pos hc, Outcome.bind_eq_ok_iff]
    exact ⟨fun ⟨_, hcheck, hx⟩ => ⟨fun _ => hcheck, hx⟩, fun ⟨hcheck, hx⟩ => ⟨(), hcheck hc, hx⟩⟩
  · rw [if_neg hc]
    exact ⟨fun hx => ⟨fun h => absurd h hc, hx⟩, fun h => h.2⟩

theorem Outcome.ofOption_eq_error_iff {α : Type} {refusal cause : Refusal} {x : Option α} :
    Outcome.ofOption refusal x = .error cause ↔ x = none ∧ refusal = cause := by
  cases x <;> simp [Outcome.ofOption]

end RuneSettlement
