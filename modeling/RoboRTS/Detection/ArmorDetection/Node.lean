import RoboRTS.Common.State
import RoboRTS.Lib.StateMachine
import Mathlib.Logic.Function.Basic

/-!
# The armor detection node

`ExecuteActionGoal` runs in a thread of its own for each goal and calls `StartThread`, `PauseThread`
or `StopThread`, which control the thread of `ExecuteLoop`. A step is one access to what the threads
share: `node_state_`, `running_`, the thread object, or the condition variable. The detector, whose
thread state the calls set as well, accesses none of these: a whole `DetectArmor` is one step.

`notify_one` wakes the loop only if it is waiting, and a wait may also end without a notification.
Assigning to a thread object that is joinable, or joining one that is not, ends the program.
-/

namespace RoboRTS.Detection

open Common

/-- Where a call of `StartThread`, `PauseThread` or `StopThread` stands. -/
inductive CallPc where
  | startRunning
  | startTest
  | startThread
  | startState
  | startNotify
  | startDone
  | pauseState
  | pauseDone
  | stopState
  | stopRunning
  | stopJoinable
  | stopJoin
  | stopDone
  deriving DecidableEq, Repr

/-- Where `ExecuteLoop` stands. It is blocked at `waiting`. -/
inductive LoopPc where
  | test
  | testRunning
  | detectArmor
  | testPause
  | wait
  | waiting
  deriving DecidableEq, Repr

/-- What ends the program. -/
inductive Terminate where
  | threadAssigned
  | joinInvalid
  deriving DecidableEq, Repr

/-- The node: `joinable` says so of `armor_detection_thread_`, `loop` is none while `ExecuteLoop`
does not run, and `calls` holds the calls of the first `accepted` goals. -/
structure ArmorDetectionNode where
  nodeState : NodeState
  running : Bool
  joinable : Bool
  loop : Option LoopPc
  accepted : Nat
  calls : Nat → Option CallPc
  terminated : Option Terminate

/-- The commands of a goal. -/
inductive Command where
  | start
  | pause
  | stop
  deriving DecidableEq, Repr

/-- A goal is accepted, call `k` or the loop takes a step, or the wait ends by itself. -/
inductive ArmorDetectionEvent where
  | accept (command : Command)
  | call (k : Nat)
  | executeLoop
  | wakeUp
  deriving DecidableEq, Repr

namespace ArmorDetectionNode

/-- The node after a successful initialisation, which leaves `running_` as it is. -/
def initial (running : Bool) : ArmorDetectionNode where
  nodeState := .IDLE
  running := running
  joinable := false
  loop := none
  accepted := 0
  calls _ := none
  terminated := none

/-- The first step of the call for a command. -/
def entryPc : Command → CallPc
  | .start => .startRunning
  | .pause => .pauseState
  | .stop => .stopState

/-- Call `k` goes on to `pc`. -/
def goTo (w : ArmorDetectionNode) (k : Nat) (pc : CallPc) : ArmorDetectionNode :=
  { w with calls := Function.update w.calls k (some pc) }

/-- A step of call `k`. -/
def call (w : ArmorDetectionNode) (k : Nat) : Option ArmorDetectionNode :=
  match w.calls k with
  | some .startRunning => some ({ w with running := true }.goTo k .startTest)
  | some .startTest => some (w.goTo k (if w.nodeState = .IDLE then .startThread else .startState))
  | some .startThread =>
      if w.joinable then some { w with terminated := some .threadAssigned }
      else some ({ w with joinable := true, loop := some .test }.goTo k .startState)
  | some .startState => some ({ w with nodeState := .RUNNING }.goTo k .startNotify)
  | some .startNotify =>
      some ({ w with
        loop := if w.loop = some LoopPc.waiting then some LoopPc.test else w.loop }.goTo k .startDone)
  | some .pauseState => some ({ w with nodeState := .PAUSE }.goTo k .pauseDone)
  | some .stopState => some ({ w with nodeState := .IDLE }.goTo k .stopRunning)
  | some .stopRunning => some ({ w with running := false }.goTo k .stopJoinable)
  | some .stopJoinable => some (w.goTo k (if w.joinable then .stopJoin else .stopDone))
  | some .stopJoin =>
      if w.joinable = false then some { w with terminated := some .joinInvalid }
      else if w.loop = none then some ({ w with joinable := false }.goTo k .stopDone)
      else none
  | some .startDone | some .pauseDone | some .stopDone | none => none

/-- A step of `ExecuteLoop`. -/
def executeLoop (w : ArmorDetectionNode) : Option ArmorDetectionNode :=
  match w.loop with
  | some .test => some { w with loop := if w.running then some .testRunning else none }
  | some .testRunning =>
      some { w with loop := some (if w.nodeState = .RUNNING then .detectArmor else .testPause) }
  | some .detectArmor => some { w with loop := some .test }
  | some .testPause =>
      some { w with loop := some (if w.nodeState = .PAUSE then .wait else .test) }
  | some .wait => some { w with loop := some .waiting }
  | some .waiting | none => none

/-- A step of the node. -/
def step (w : ArmorDetectionNode) (e : ArmorDetectionEvent) : Option ArmorDetectionNode :=
  if w.terminated.isSome then none
  else
    match e with
    | .accept command =>
        some { w with
          accepted := w.accepted + 1
          calls := Function.update w.calls w.accepted (some (entryPc command)) }
    | .call k => w.call k
    | .executeLoop => w.executeLoop
    | .wakeUp =>
        if w.loop = some LoopPc.waiting then some { w with loop := some .test } else none

end ArmorDetectionNode

end RoboRTS.Detection
