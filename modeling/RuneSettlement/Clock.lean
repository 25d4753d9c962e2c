import RuneSettlement.Word

/-!
# A clock set by hand

The clock moves only when told to. Past the last moment it starts again at zero.
-/

namespace RuneSettlement

structure Clock where
  now : Timestamp
  deriving DecidableEq

namespace Clock

def set (_ : Clock) (moment : Timestamp) : Clock := ⟨moment⟩

def advance (c : Clock) (seconds : Seconds) : Clock := ⟨c.now + seconds⟩

end Clock

end RuneSettlement
