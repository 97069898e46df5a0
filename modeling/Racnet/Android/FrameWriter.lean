import Mathlib.Order.Lattice
import Racnet.Lib.Exec

namespace Racnet.Android
open Lib

namespace FrameChunker

def minMtu : Int := 23

/-- The writes of a frame. An empty frame is refused with an exception. -/
def chunk (frame : List UInt8) (mtu : Int) : Option (List (List UInt8)) :=
  if frame = [] then none
  else
    let size := (max mtu minMtu).toNat
    if frame.length ≤ size then some [frame] else some (cut size frame.length frame)

end FrameChunker

/-- What `close` leaves in a channel can still be received; `cancel` drops it. -/
inductive ChannelState where
  | opened
  | closed
  | cancelled
  deriving DecidableEq

/-- Where the coroutine of `run` is. It leaves the loop when there is nothing more to receive, or by an
exception. It is `closing` when it has won the right to call `onClosed` and has not called it yet. -/
inductive WriterLoop where
  | unlaunched
  | waiting
  | writing (frame : List UInt8) (chunks : List (List UInt8))
  | leaving
  | closing
  | ended
  deriving DecidableEq

/-- Where the coroutine of the deadline is. Past its delay it is `due` and can no longer be cancelled. -/
inductive Deadline where
  | unset
  | delayed
  | due
  | closing
  | over
  deriving DecidableEq

/-- The writer of a connection. `batch` is what is left of the batch that `enqueue` is working on, under the
monitor. Of the outside it is kept what was written and how often `onClosed` was called. -/
structure FrameWriter where
  maxQueuedBytes : Nat
  frames : List (List UInt8)
  channel : ChannelState
  queuedBytes : Nat
  closed : Bool
  finishing : Bool
  deadline : Deadline
  batch : Option (List (List UInt8))
  loop : WriterLoop
  written : List UInt8
  closings : Nat

namespace FrameWriter

def new (maxQueuedBytes : Nat) : FrameWriter where
  maxQueuedBytes
  frames := []
  channel := .opened
  queuedBytes := 0
  closed := false
  finishing := false
  deadline := .unset
  batch := none
  loop := .unlaunched
  written := []
  closings := 0

/-- The test of `closeTransport`. Its winner calls `onClosed` in a step of its own, and other threads may
come between. -/
def closeTransport (writer : FrameWriter) : Bool × FrameWriter :=
  if writer.closed then (false, writer) else (true, { writer with closed := true })

def onClosed (writer : FrameWriter) : FrameWriter := { writer with closings := writer.closings + 1 }

/-- The loop body of `enqueue`. The frame is counted before it is sent, and no longer if it is not. -/
def offer (writer : FrameWriter) (frame : List UInt8) : Bool × FrameWriter :=
  if writer.queuedBytes + frame.length > writer.maxQueuedBytes then (false, writer)
  else if writer.channel ≠ .opened then (false, writer)
  else
    (true, { writer with
      frames := writer.frames ++ [frame]
      queuedBytes := writer.queuedBytes + frame.length })

def finish (writer : FrameWriter) : FrameWriter :=
  if writer.finishing ∨ writer.closed then writer
  else { writer with finishing := true, channel := .closed, deadline := .delayed }

def cancel (writer : FrameWriter) : FrameWriter :=
  { writer with
    finishing := true
    channel := .cancelled
    frames := []
    deadline := if writer.deadline = .delayed then .over else writer.deadline }

/-- What the threads do, one at a time. The monitor keeps `enqueue`, `finish` and `cancel` apart, but not the
coroutine and the deadline. -/
inductive Action where
  | enqueue (batch : List (List UInt8))
  | offer
  | finish
  | cancel
  | launch
  | receive (mtu : Int)
  | write
  | fail (count : Nat)
  | next
  | exhausted
  | interrupt
  | leave
  | close
  | expire
  | deadlineLeave
  | deadlineClose

/-- The writer after an action, `none` where it cannot happen. -/
def act (writer : FrameWriter) : Action → Option FrameWriter
  | .enqueue batch =>
    if writer.batch.isSome then none
    else if writer.finishing ∨ writer.closed then some writer
    else some { writer with batch := some batch }
  | .offer =>
    match writer.batch with
    | none => none
    | some [] => some { writer with batch := none }
    | some (frame :: rest) =>
      match writer.offer frame with
      | (true, writer) => some { writer with batch := some rest }
      | (false, writer) => some { writer with batch := none }
  | .finish => if writer.batch.isSome then none else some writer.finish
  | .cancel => if writer.batch.isSome then none else some writer.cancel
  | .launch => if writer.loop = .unlaunched then some { writer with loop := .waiting } else none
  | .receive mtu =>
    match writer.loop, writer.frames with
    | .waiting, frame :: frames =>
      match FrameChunker.chunk frame mtu with
      | some chunks => some { writer with frames, loop := .writing frame chunks }
      | none => some { writer with frames, loop := .leaving }
    | _, _ => none
  | .write =>
    match writer.loop with
    | .writing frame (chunk :: chunks) =>
      some { writer with loop := .writing frame chunks, written := writer.written ++ chunk }
    | _ => none
  -- the socket throws, possibly after a part of the chunk
  | .fail count =>
    match writer.loop with
    | .writing _ (chunk :: _) =>
      some { writer with loop := .leaving, written := writer.written ++ chunk.take count }
    | _ => none
  | .next =>
    match writer.loop with
    | .writing frame [] =>
      some { writer with loop := .waiting, queuedBytes := writer.queuedBytes - frame.length }
    | _ => none
  | .exhausted =>
    if writer.loop = .waiting ∧ writer.frames = [] ∧ writer.channel ≠ .opened then
      some { writer with loop := .leaving }
    else none
  -- the scope of the connection is cancelled while the coroutine waits
  | .interrupt => if writer.loop = .waiting then some { writer with loop := .leaving } else none
  | .leave =>
    if writer.loop = .leaving then
      match writer.closeTransport with
      | (true, writer) => some { writer with loop := .closing }
      | (false, writer) => some { writer with loop := .ended }
    else none
  | .close => if writer.loop = .closing then some { writer.onClosed with loop := .ended } else none
  | .expire => if writer.deadline = .delayed then some { writer with deadline := .due } else none
  | .deadlineLeave =>
    if writer.deadline = .due then
      match writer.closeTransport with
      | (true, writer) => some { writer with deadline := .closing }
      | (false, writer) => some { writer with deadline := .over }
    else none
  | .deadlineClose =>
    if writer.deadline = .closing then some { writer.onClosed with deadline := .over } else none

end FrameWriter

end Racnet.Android
