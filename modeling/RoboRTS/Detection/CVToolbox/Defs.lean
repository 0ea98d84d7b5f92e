import RoboRTS.Lib.StateMachine
import Mathlib.Logic.Function.Basic

/-!
# The image buffers of the detection

`ImageCallback` copies a received image into every buffer that is not being read, and one reader
takes images with `NextImage` and gives the buffers back with `ReadComplete`. A step is one access
to a buffer, a buffer state or `latest_index_`; what the lock of `NextImage` guards is one step.

Images are numbered from 1 in the order in which they are received, and 0 is no image. `returned`
and `overwritten` are ghosts: the images that `NextImage` has returned, the last one first, and that
the callback has written the image or the state of a buffer while the reader held it.
-/

namespace RoboRTS.Detection

inductive BufferState where
  | IDLE
  | WRITE
  | READ
  deriving DecidableEq, Repr

/-- What the loop of `ImageCallback` does next with buffer `i`. -/
inductive CallbackPc where
  | testState
  | writeImage
  | writeState
  | publish
  deriving DecidableEq, Repr

/-- Where the reader stands: outside of `NextImage`, before its locked section, before it reads the
image of buffer `i`, or before `ReadComplete` of buffer `i`. -/
inductive Reader where
  | idle
  | locked
  | read (i : Nat)
  | holding (i : Nat)
  deriving DecidableEq, Repr

/-- The toolbox: `received` counts the images, and `callback` is the number of the buffer and the
next step of a callback in progress. -/
structure CVToolbox where
  imageBuffer : Nat → Nat
  bufferState : Nat → BufferState
  latestIndex : Option Nat
  received : Nat
  callback : Option (Nat × CallbackPc)
  reader : Reader
  returned : List Nat
  overwritten : Bool

/-- An image is received, or the callback or the reader takes a step. -/
inductive CVToolboxEvent where
  | receive
  | imageCallback
  | read
  deriving DecidableEq, Repr

/-- The reader holds buffer `i`. -/
def Reader.Holds (r : Reader) (i : Nat) : Prop :=
  r = .read i ∨ r = .holding i

instance (r : Reader) (i : Nat) : Decidable (r.Holds i) :=
  inferInstanceAs (Decidable (_ ∨ _))

namespace CVToolbox

/-- No image has been received. -/
def initial : CVToolbox where
  imageBuffer _ := 0
  bufferState _ := .IDLE
  latestIndex := none
  received := 0
  callback := none
  reader := .idle
  returned := []
  overwritten := false

variable (bufferSize : Nat)

/-- The callback turns to buffer `i`, if there is one. -/
def turnTo (i : Nat) : Option (Nat × CallbackPc) :=
  if i < bufferSize then some (i, .testState) else none

/-- A step of `ImageCallback`. -/
def imageCallback (w : CVToolbox) : Option CVToolbox :=
  match w.callback with
  | none => none
  | some (i, .testState) =>
      some { w with
        callback := if w.bufferState i ≠ .READ then some (i, .writeImage)
          else turnTo bufferSize (i + 1) }
  | some (i, .writeImage) =>
      some { w with
        imageBuffer := Function.update w.imageBuffer i w.received
        overwritten := w.overwritten || decide (w.reader.Holds i)
        callback := some (i, .writeState) }
  | some (i, .writeState) =>
      some { w with
        bufferState := Function.update w.bufferState i .WRITE
        overwritten := w.overwritten || decide (w.reader.Holds i)
        callback := some (i, .publish) }
  | some (i, .publish) =>
      some { w with latestIndex := some i, callback := turnTo bufferSize (i + 1) }

/-- A step of the reader, who alternates `NextImage` and `ReadComplete`. Without an image
`NextImage` returns -1. -/
def read (w : CVToolbox) : Option CVToolbox :=
  match w.reader with
  | .idle => some { w with reader := if w.latestIndex = none then .idle else .locked }
  | .locked =>
      match w.latestIndex with
      | none => none
      | some i =>
          if w.bufferState i = .WRITE then
            some { w with
              bufferState := Function.update w.bufferState i .READ
              reader := .read i }
          else some { w with reader := .idle }
  | .read i => some { w with returned := w.imageBuffer i :: w.returned, reader := .holding i }
  | .holding i =>
      some { w with bufferState := Function.update w.bufferState i .IDLE, reader := .idle }

/-- A step of the toolbox. Callbacks follow each other. -/
def step (w : CVToolbox) : CVToolboxEvent → Option CVToolbox
  | .receive =>
      if w.callback = none then
        some { w with received := w.received + 1, callback := turnTo bufferSize 0 }
      else none
  | .imageCallback => w.imageCallback bufferSize
  | .read => w.read

end CVToolbox

end RoboRTS.Detection
