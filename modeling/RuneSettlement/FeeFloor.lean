import RuneSettlement.Quantity

/-!
# The congestion floor

The least native value of a transaction grows by `step` with every transaction in the queue, up to
`maxDepth` of them.
-/

namespace RuneSettlement

structure FeeFloor where
  base : Sats
  step : Sats
  maxDepth : BitVec 32
  deriving DecidableEq

namespace FeeFloor

/-- The floor at a queue length; a floor beyond the greatest amount is that amount. -/
def minimal (floor : FeeFloor) (queueLength : BitVec 32) : Sats :=
  let rise := Word.ofNatCapped 64 (floor.step.toNat * min queueLength.toNat floor.maxDepth.toNat)
  Word.ofNatCapped 64 (floor.base.toNat + rise.toNat)

def check (floor : FeeFloor) (value : Sats) (queueLength : BitVec 32) : Outcome Unit :=
  if value.toNat < (floor.minimal queueLength).toNat then .error .belowFloor else .ok ()

end FeeFloor

end RuneSettlement
