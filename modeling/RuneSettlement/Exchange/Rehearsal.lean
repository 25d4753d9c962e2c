import RuneSettlement.Clock
import RuneSettlement.Exchange.Calls

/-!
# Rehearsals

A rehearsal runs an exchange against a rune indexer, a key service and a clock that answer from
memory and by script. It can hold a call at its first question to one of them while others run.
Every end of a hold lets the call go on that has been held longest. So where holds nest, the inner
end lets the outer call go on, and an inner question to the indexer times out.

Time passes only while a call waits for the indexer, and the clock does not follow it.
-/

namespace RuneSettlement

/-- A rune indexer that answers from memory, or fails, after a delay. -/
structure ScriptedIndexer where
  entries : SortedMap CoinId RuneEntry
  outputs : SortedMap OutPoint (List Coin)
  failure : Option Refusal
  delay : Millis
  deriving DecidableEq

namespace ScriptedIndexer

def empty : ScriptedIndexer := ⟨.empty, .empty, none, 0#64⟩

def addRune (x : ScriptedIndexer) (id : CoinId) (name : String) : ScriptedIndexer :=
  { x with entries := x.entries.insert id ⟨id, name, 0#8, none⟩ }

def setOutput (x : ScriptedIndexer) (outpoint : OutPoint) (coins : List Coin) : ScriptedIndexer :=
  { x with outputs := x.outputs.insert outpoint coins }

def failWith (x : ScriptedIndexer) (code : RejectionCode) (reason : String) : ScriptedIndexer :=
  { x with failure := some (.indexerRejected code reason) }

def recover (x : ScriptedIndexer) : ScriptedIndexer := { x with failure := none }

def setDelay (x : ScriptedIndexer) (delay : Millis) : ScriptedIndexer := { x with delay }

def answer {α : Type} (x : ScriptedIndexer) (a : α) : Outcome α :=
  match x.failure with
  | some refusal => .error refusal
  | none => .ok a

def entry (x : ScriptedIndexer) (id : CoinId) : Outcome (Option RuneEntry) :=
  x.answer (x.entries.get? id)

def outputCoins (x : ScriptedIndexer) (outpoint : OutPoint) : Outcome (List Coin) :=
  x.answer ((x.outputs.get? outpoint).getD [])

/-- When a question is answered that is put at some time. -/
def due (x : ScriptedIndexer) (time : Nat) : Nat := time + x.delay.toNat

end ScriptedIndexer

/-- A key service that names keys after their paths and signs everything alike. -/
structure ScriptedKeys where
  addressPrefix : String
  signature : Bytes
  /-- Whether all paths share one key. -/
  collides : Bool
  deriveFails : Bool
  signFails : Bool
  deriving DecidableEq

inductive KeyService
  | ring (ring : KeyRing)
  | scripted (keys : ScriptedKeys)
  deriving DecidableEq

namespace KeyService

def derive (service : KeyService) (path : DerivationPath) : Outcome PoolKeys :=
  match service with
  | ring keys => .ok (keys.derive path)
  | scripted keys =>
    let id := if keys.collides then "" else Hex.encode path.flatten
    if keys.deriveFails then .error .keyFailure
    else .ok ⟨"u" ++ id, "t" ++ id, path, keys.addressPrefix ++ id⟩

def sign (service : KeyService) (path : DerivationPath) (message : Bytes) : Outcome Bytes :=
  match service with
  | ring keys => .ok (keys.sign path message)
  | scripted keys => if keys.signFails then .error .keyFailure else .ok keys.signature

/-- Makes derivation and signing fail or succeed from now on. A key ring does neither fail. -/
def setFailures (service : KeyService) (deriveFails signFails : Bool) : KeyService :=
  match service with
  | ring keys => ring keys
  | scripted keys => scripted { keys with deriveFails, signFails }

end KeyService

structure Rehearsal where
  exchange : Exchange
  indexer : ScriptedIndexer
  keys : KeyService
  clock : Clock
  /-- The time that has passed, in milliseconds. -/
  time : Nat
  /-- The number of calls that are held. -/
  held : Nat
  deriving DecidableEq

/-- Whom a question goes to. -/
inductive Topic
  | derive
  | sign
  | indexer
  deriving DecidableEq

def Question.topic : Question → Topic
  | keys _ => .derive
  | signature _ _ => .sign
  | runeEntry _ | outputCoins _ => .indexer

namespace Rehearsal

def create (config : Config) (keys : KeyService) (start : Timestamp) : Rehearsal :=
  ⟨.create config, .empty, keys, ⟨start⟩, 0, 0⟩

/-- Hears the indexer, however long it takes. -/
def hear {α : Type} (answer : Outcome α) (r : Rehearsal) : Outcome α × Rehearsal :=
  (answer, { r with time := r.indexer.due r.time })

/-- Hears the indexer, unless it is late for a question asked at some time or was never reached. An
answer without delay is never late. -/
def hearInTime {α : Type} (asked : Nat) (reached : Bool) (answer : Outcome α) (r : Rehearsal) :
    Outcome α × Rehearsal :=
  let deadline := asked + r.exchange.config.indexerTimeout.toNat
  if reached ∧ (r.indexer.delay = 0#64 ∨ r.indexer.due r.time ≤ deadline) then r.hear answer
  else
    (.error (.indexerRejected .sysTransient "timeout"), { r with time := max r.time deadline })

/-- The reply to a question asked at some time. -/
def reply (asked : Nat) (reached : Bool) (r : Rehearsal) : (q : Question) → Reply q × Rehearsal
  | .keys path => (r.keys.derive path, r)
  | .signature path message => (r.keys.sign path message, r)
  | .runeEntry id => r.hearInTime asked reached (r.indexer.entry id)
  | .outputCoins outpoint => r.hearInTime asked reached (r.indexer.outputCoins outpoint)

/-- Runs `meanwhile` while a call is held, and tells whether that call goes on after it. -/
def holding {β : Type} (meanwhile : Rehearsal → β × Rehearsal) (r : Rehearsal) :
    β × Bool × Rehearsal :=
  let (b, r) := meanwhile { r with held := r.held + 1 }
  (b, decide (r.held ≤ 1), { r with held := r.held - 2 })

/-- Carries a call from a stage to its answer. At the first question on the topic `hold` the call is
held while `meanwhile` runs, whose result is given too. -/
def carry {β : Type} (meanwhile : Rehearsal → β × Rehearsal) (hold : Option Topic)
    (result : Option β) (stage : Stage) (r : Rehearsal) : Outcome Answer × Option β × Rehearsal :=
  match stage with
  | .answered answer => (answer, result, r)
  | .run next =>
    let after := next.run r.clock.now r.exchange
    carry meanwhile hold result after.1 { r with exchange := after.2 }
  | .ask inquiry =>
    if hold = some inquiry.question.topic then
      let (b, reached, later) := r.holding meanwhile
      let reply := later.reply r.time reached inquiry.question
      carry meanwhile none (some b) (inquiry.hear reply.1) reply.2
    else
      let reply := r.reply r.time true inquiry.question
      carry meanwhile hold result (inquiry.hear reply.1) reply.2
termination_by stage.remaining
decreasing_by
  · exact next.remaining_run_lt _ _
  · exact inquiry.remaining_hear_lt _
  · exact inquiry.remaining_hear_lt _

def perform {β : Type} (request : Request) (hold : Option Topic)
    (meanwhile : Rehearsal → β × Rehearsal) (r : Rehearsal) :
    Outcome Answer × Option β × Rehearsal :=
  let (stage, exchange) := r.exchange.begin request r.clock.now
  carry meanwhile hold none stage { r with exchange }

end Rehearsal

end RuneSettlement
