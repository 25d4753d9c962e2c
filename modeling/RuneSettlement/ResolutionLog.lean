import RuneSettlement.Pool

/-!
# The resolution log

How each transaction ended on each pool. The log holds a bounded number of outcomes: the first
outcome of a transaction stays, and a new one pushes out the oldest when the log is full.
-/

namespace RuneSettlement

inductive Resolution
  | finalized
  | rolledBack
  deriving DecidableEq

structure ResolutionLog where
  outcomes : SortedMap (Address × Txid) Resolution
  /-- The transactions in the log, the oldest first. -/
  order : List (Address × Txid)
  capacity : Nat
  deriving DecidableEq

namespace ResolutionLog

/-- An empty log, with room for one outcome at least. -/
def create (capacity : Nat) : ResolutionLog := ⟨.empty, [], max 1 capacity⟩

def get? (log : ResolutionLog) (pool : Address) (txid : Txid) : Option Resolution :=
  log.outcomes.get? (pool, txid)

def size (log : ResolutionLog) : Nat := log.outcomes.size

def isEmpty (log : ResolutionLog) : Bool := log.outcomes.isEmpty

def evict (log : ResolutionLog) : ResolutionLog :=
  match log.order with
  | oldest :: order => { log with outcomes := log.outcomes.erase oldest, order }
  | [] => log

def append (log : ResolutionLog) (key : Address × Txid) (resolution : Resolution) : ResolutionLog :=
  { log with outcomes := log.outcomes.insert key resolution, order := log.order ++ [key] }

def record (log : ResolutionLog) (key : Address × Txid) (resolution : Resolution) :
    ResolutionLog :=
  if log.outcomes.contains key then log
  else if log.capacity ≤ log.size then log.evict.append key resolution
  else log.append key resolution

end ResolutionLog

end RuneSettlement
