import Mathlib.Tactic.Common

/-!
# Behaviour states

The states that executors, behaviours and behaviour nodes report.
-/

namespace RoboRTS.Decision

inductive BehaviorState where
  | RUNNING
  | SUCCESS
  | FAILURE
  | IDLE
  deriving DecidableEq, Repr

end RoboRTS.Decision
