import RuneSettlement.Json.Format
import RuneSettlement.Refusal

/-!
# JSON format of refusals

A refusal is written by the name of its cause, with the data of the cause if there is any.
-/

namespace RuneSettlement

open JsonFormat

namespace RejectionCode

def all : List RejectionCode :=
  [noError, sysFatal, sysTransient, destinationInvalid, canisterReject, canisterError, unknown]

def name : RejectionCode → String
  | noError => "NoError"
  | sysFatal => "SysFatal"
  | sysTransient => "SysTransient"
  | destinationInvalid => "DestinationInvalid"
  | canisterReject => "CanisterReject"
  | canisterError => "CanisterError"
  | unknown => "Unknown"

instance : JsonFormat RejectionCode := ofNames all name

end RejectionCode

namespace Refusal

def name : Refusal → String
  | invalidInput => "InvalidInput"
  | invalidNumeral => "InvalidNumeric"
  | invalidPayload _ => "InvalidPsbt"
  | invalidTxid _ => "InvalidTxid"
  | invalidRuneId => "InvalidRuneId"
  | staleNonce _ => "PoolStateExpired"
  | poolExists => "PoolAlreadyExists"
  | invalidState _ => "InvalidState"
  | nothingPending => "LastStateNotFound"
  | poolNotFound => "PoolAddressNotFound"
  | poolBusy _ => "PoolBusy"
  | insufficientFunds => "InsufficientFunds"
  | rewardsInsufficient _ => "CookieBalanceInsufficient"
  | belowFloor => "TooSmallFunds"
  | invalidLiquidity => "InvalidLiquidity"
  | emptyPool => "EmptyPool"
  | depositMismatch _ _ => "DepositRuneBalanceIncorrect"
  | runeMismatch _ _ => "RuneIdNotMatch"
  | overflow => "Overflow"
  | beyondSats _ => "NatConvertError"
  | accountNotFound _ => "GamerNotFound"
  | accountExists _ => "GamerAlreadyExist"
  | coolingDown _ _ => "GamerCoolingDown"
  | withdrawPending _ => "GamerWithdrawRepeatedly"
  | indexerRejected _ _ => "FetchRuneIndexerError"
  | indexerDisagrees _ => "RuneIndexerResultError"
  | keyFailure => "ChainKeyError"
  | other _ => "CustomError"

/-- The data of the cause. -/
def payload : Refusal → Option Json
  | invalidInput | invalidNumeral | invalidRuneId | poolExists | nothingPending | poolNotFound
  | insufficientFunds | belowFloor | invalidLiquidity | emptyPool | overflow | keyFailure => none
  | invalidPayload s | invalidTxid s | invalidState s | poolBusy s | accountNotFound s
  | accountExists s | withdrawPending s | indexerDisagrees s | other s => some (toJson s)
  | staleNonce n => some (toJson n)
  | rewardsInsufficient a | beyondSats a => some (toJson a)
  | depositMismatch a b | runeMismatch a b => some (.array [toJson a, toJson b])
  | coolingDown a t => some (.array [toJson a, toJson t])
  | indexerRejected c s => some (.array [toJson c, toJson s])

/-- A cause without data. -/
def bare (refusal : Refusal) (payload : Option Json) : Option Refusal :=
  (noData? payload).map fun _ => refusal

/-- A cause with one datum. -/
def single {α : Type} [JsonFormat α] (refusal : α → Refusal) (payload : Option Json) :
    Option Refusal := (required payload).map refusal

/-- A cause with two data. -/
def double {α β : Type} [JsonFormat α] [JsonFormat β] (refusal : α → β → Refusal) :
    Option Json → Option Refusal
  | some (.array [a, b]) => do return refusal (← ofJson? a) (← ofJson? b)
  | _ => none

/-- How each cause is read, by name. -/
def readers : List (String × (Option Json → Option Refusal)) :=
  [("InvalidInput", bare invalidInput), ("InvalidNumeric", bare invalidNumeral),
    ("InvalidPsbt", single invalidPayload), ("InvalidTxid", single invalidTxid),
    ("InvalidRuneId", bare invalidRuneId), ("PoolStateExpired", single staleNonce),
    ("PoolAlreadyExists", bare poolExists), ("InvalidState", single invalidState),
    ("LastStateNotFound", bare nothingPending), ("PoolAddressNotFound", bare poolNotFound),
    ("PoolBusy", single poolBusy), ("InsufficientFunds", bare insufficientFunds),
    ("CookieBalanceInsufficient", single rewardsInsufficient), ("TooSmallFunds", bare belowFloor),
    ("InvalidLiquidity", bare invalidLiquidity), ("EmptyPool", bare emptyPool),
    ("DepositRuneBalanceIncorrect", double depositMismatch),
    ("RuneIdNotMatch", double runeMismatch), ("Overflow", bare overflow),
    ("NatConvertError", single beyondSats), ("GamerNotFound", single accountNotFound),
    ("GamerAlreadyExist", single accountExists), ("GamerCoolingDown", double coolingDown),
    ("GamerWithdrawRepeatedly", single withdrawPending),
    ("FetchRuneIndexerError", double indexerRejected),
    ("RuneIndexerResultError", single indexerDisagrees), ("ChainKeyError", bare keyFailure),
    ("CustomError", single other)]

instance : JsonFormat Refusal where
  toJson r :=
    match r.payload with
    | some payload => .record [(r.name, payload)]
    | none => .text r.name
  ofJson? j := do
    let (name, payload) ← choice? j
    let reader ← readers.find? fun r => decide (r.1 = name)
    reader.2 payload

end Refusal

end RuneSettlement
