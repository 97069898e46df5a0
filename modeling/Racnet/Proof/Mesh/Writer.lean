import Racnet.Android.FrameWriter
import Racnet.Proof.Format.Reassembly

/-!
# The writer of a connection

Whatever the threads do and whatever the sizes of the writes are, the socket is given the frames that were
accepted, in their order and without gaps, and the decoder of the peer finds their bodies.
-/

namespace Racnet.Proof.Mesh
open Lib Wire Android
open Proof.Format (Reading InOrder HasFrame stream pushed_prefix_step)

/-! ## Chunks -/

theorem cut_nonempty {α : Type} {size : Nat} (positive : 0 < size) (fuel : Nat) (xs : List α) :
    ∀ piece ∈ cut size fuel xs, piece ≠ [] := by
  induction fuel generalizing xs with
  | zero => simp [cut]
  | succ fuel ih =>
    cases xs with
    | nil => simp [cut]
    | cons x xs =>
      rw [cut, List.forall_mem_cons]
      exact ⟨by simp [positive.ne'], ih _⟩

theorem chunk_spec {frame : List UInt8} {mtu : Int} {chunks : List (List UInt8)}
    (cut_ : FrameChunker.chunk frame mtu = some chunks) :
    chunks.flatten = frame ∧ ∀ piece ∈ chunks, piece ≠ [] ∧ (piece.length : Int) ≤ max mtu 23 := by
  rw [FrameChunker.chunk, Option.ite_none_left_eq_some] at cut_
  obtain ⟨nonempty, cut_⟩ := cut_
  have floor : (23 : Int) ≤ max mtu FrameChunker.minMtu := le_max_right _ _
  have positive : 0 < (max mtu FrameChunker.minMtu).toNat := by omega
  have size : ((max mtu FrameChunker.minMtu).toNat : Int) = max mtu 23 := Int.toNat_of_nonneg (by omega)
  dsimp only at cut_
  split_ifs at cut_ with short
  · cases cut_
    refine ⟨by simp, fun piece mem => ?_⟩
    obtain rfl := List.mem_singleton.mp mem
    exact ⟨nonempty, by omega⟩
  · cases cut_
    obtain ⟨joined, bounded⟩ := cut_spec positive (le_refl frame.length)
    refine ⟨joined, fun piece mem => ⟨cut_nonempty positive _ _ piece mem, ?_⟩⟩
    have := bounded piece mem
    omega

/-! ## Runs -/

/-- A writer in use: the frames it has accepted, and whether something other than an orderly end has
happened to it. -/
structure Watched where
  writer : FrameWriter
  accepted : List (List UInt8)
  disturbed : Bool

def accepts (writer : FrameWriter) : FrameWriter.Action → List (List UInt8)
  | .offer =>
    match writer.batch with
    | some (frame :: _) => if (writer.offer frame).1 then [frame] else []
    | _ => []
  | _ => []

def left : WriterLoop → Bool
  | .leaving | .closing | .ended => true
  | _ => false

-- `onClosed` cancels the writer in turn, which does no harm once the loop has been left
def disturbs (writer : FrameWriter) : FrameWriter.Action → Bool
  | .cancel => !left writer.loop
  | .fail _ | .interrupt => true
  | .receive mtu => writer.frames.head?.any fun frame => (FrameChunker.chunk frame mtu).isNone
  | _ => false

inductive Watched.Reached (maxQueuedBytes : Nat) : Watched → Prop where
  | start : Reached maxQueuedBytes ⟨.new maxQueuedBytes, [], false⟩
  | act {watched : Watched} {writer : FrameWriter} (action : FrameWriter.Action)
      (reached : Reached maxQueuedBytes watched) (ran : watched.writer.act action = some writer) :
      Reached maxQueuedBytes ⟨writer, watched.accepted ++ accepts watched.writer action,
        watched.disturbed || disturbs watched.writer action⟩

/-- The frame that the loop is at, and what is written of it. -/
def Place : WriterLoop → List (List UInt8) → List UInt8 → Prop
  | .unlaunched, current, part | .waiting, current, part => current = [] ∧ part = []
  | .writing frame chunks, current, part => current = [frame] ∧ part ++ chunks.flatten = frame
  | .leaving, current, part | .closing, current, part | .ended, current, part => part <+: current.flatten

/-- What an undisturbed writer has: its channel as long as the loop runs, and nothing left after it. -/
def Smooth (writer : FrameWriter) (current lost : List (List UInt8)) : Prop :=
  match left writer.loop with
  | false => writer.channel ≠ .cancelled
  | true => writer.channel ≠ .opened ∧ writer.frames = [] ∧ current = [] ∧ lost = []

/-- The frames are done, at hand, in the channel or lost, in this order. -/
structure Ordered (limit : Nat) (watched : Watched) (done current lost : List (List UInt8))
    (part : List UInt8) : Prop where
  accepted : watched.accepted = done ++ (current ++ (watched.writer.frames ++ lost))
  written : watched.writer.written = done.flatten ++ part
  place : Place watched.writer.loop current part
  kept : watched.writer.channel ≠ .cancelled → lost = []
  running : watched.writer.finishing = false → watched.writer.channel = .opened
  counted : (current ++ watched.writer.frames).flatten.length ≤ watched.writer.queuedBytes
  bounded : watched.writer.queuedBytes ≤ watched.writer.maxQueuedBytes
  limited : watched.writer.maxQueuedBytes = limit
  smooth : watched.disturbed = false → Smooth watched.writer current lost

section
variable {limit : Nat} {watched : Watched} {writer : FrameWriter} {done current lost : List (List UInt8)}
  {part : List UInt8}

theorem closeTransport_cases (writer : FrameWriter) :
    writer.closed = true ∧ writer.closeTransport = (false, writer) ∨
      writer.closed = false ∧ writer.closeTransport = (true, { writer with closed := true }) := by
  rw [FrameWriter.closeTransport]
  cases closed : writer.closed with
  | true => exact Or.inl ⟨rfl, if_pos rfl⟩
  | false => exact Or.inr ⟨rfl, if_neg Bool.false_ne_true⟩

theorem offer_cases (writer : FrameWriter) (frame : List UInt8) :
    writer.offer frame = (false, writer) ∨
      writer.queuedBytes + frame.length ≤ writer.maxQueuedBytes ∧ writer.channel = .opened ∧
        writer.offer frame = (true, { writer with
          frames := writer.frames ++ [frame]
          queuedBytes := writer.queuedBytes + frame.length }) := by
  rw [FrameWriter.offer]
  by_cases full : writer.queuedBytes + frame.length > writer.maxQueuedBytes
  · exact Or.inl (if_pos full)
  rw [if_neg full]
  by_cases open_ : writer.channel = .opened
  · exact Or.inr ⟨Nat.le_of_not_lt full, open_, if_neg (not_not.mpr open_)⟩
  · exact Or.inl (if_pos open_)

theorem Ordered.still
    (ordered : Ordered limit ⟨writer, watched.accepted, watched.disturbed⟩ done current lost part) :
    Ordered limit ⟨writer, watched.accepted ++ [], watched.disturbed || false⟩ done current lost part := by
  rwa [List.append_nil, Bool.or_false]

theorem Ordered.upset (ordered : Ordered limit ⟨writer, watched.accepted, true⟩ done current lost part) :
    Ordered limit ⟨writer, watched.accepted ++ [], watched.disturbed || true⟩ done current lost part := by
  rwa [List.append_nil, Bool.or_true]

theorem Ordered.offered (ordered : Ordered limit watched done current lost part)
    (ran : watched.writer.act .offer = some writer) :
    Ordered limit ⟨writer, watched.accepted ++ accepts watched.writer .offer, watched.disturbed || false⟩
      done current lost part := by
  rw [FrameWriter.act] at ran
  rw [accepts]
  rcases batch : watched.writer.batch with _ | _ | ⟨frame, rest⟩ <;> rw [batch] at ran
  · cases ran
  · cases ran
    exact Ordered.still { ordered with }
  dsimp only at ran ⊢
  rcases offer_cases watched.writer frame with refused | ⟨room, open_, sent⟩
  · rw [refused] at ran ⊢
    cases ran
    exact Ordered.still { ordered with }
  · rw [sent] at ran ⊢
    cases ran
    obtain rfl := ordered.kept (by simp [open_])
    refine { ordered with accepted := ?_, counted := ?_, bounded := room, smooth := ?_ }
    · simp [ordered.accepted]
    · have counted := ordered.counted
      simp only [List.flatten_append, List.length_append, List.flatten_cons, List.flatten_nil,
        List.append_nil] at counted ⊢
      omega
    · rw [Bool.or_false]
      intro quiet
      have smooth := ordered.smooth quiet
      rw [Smooth] at smooth ⊢
      cases out : left watched.writer.loop with
      | false => exact fun cancelled => nomatch open_.symm.trans cancelled
      | true =>
        rw [out] at smooth
        exact absurd open_ smooth.1

theorem Ordered.cancelled (ordered : Ordered limit watched done current lost part) :
    Ordered limit ⟨watched.writer.cancel, watched.accepted ++ [],
      watched.disturbed || !left watched.writer.loop⟩ done current (watched.writer.frames ++ lost) part := by
  refine ⟨?_, ordered.written, ordered.place, fun open_ => absurd rfl open_, nofun, ?_, ordered.bounded,
    ordered.limited, fun quiet => ?_⟩
  · rw [List.append_nil]
    exact ordered.accepted
  · have counted := ordered.counted
    simp only [FrameWriter.cancel, List.flatten_append, List.length_append, List.append_nil] at counted ⊢
    omega
  · obtain ⟨before, out⟩ := Bool.or_eq_false_iff.mp quiet
    rw [Bool.not_eq_false'] at out
    have smooth := ordered.smooth before
    rw [Smooth, out] at smooth
    obtain ⟨-, frames, rfl, rfl⟩ := smooth
    rw [Smooth, FrameWriter.cancel, out, frames]
    exact ⟨nofun, rfl, rfl, rfl⟩

theorem Ordered.received (ordered : Ordered limit watched done current lost part) {mtu : Int}
    (ran : watched.writer.act (.receive mtu) = some writer) :
    ∃ current, Ordered limit ⟨writer, watched.accepted ++ [],
      watched.disturbed || disturbs watched.writer (.receive mtu)⟩ done current lost [] := by
  rw [FrameWriter.act] at ran
  rw [disturbs]
  rcases loop : watched.writer.loop <;> rcases frames : watched.writer.frames with _ | ⟨frame, frames'⟩ <;>
    rw [loop, frames] at ran <;> try cases ran
  have place := ordered.place
  rw [loop] at place
  obtain ⟨rfl, rfl⟩ := place
  refine ⟨[frame], ?_⟩
  have accepted := ordered.accepted
  have counted := ordered.counted
  rw [frames] at accepted counted
  dsimp only at ran
  cases made : FrameChunker.chunk frame mtu with
  | none =>
    rw [made] at ran
    cases ran
    refine { ordered with
      accepted := ?_, place := ?_, counted := counted, smooth := ?_ }
    · rw [List.append_nil, accepted]
      rfl
    · exact List.nil_prefix
    · simp [made]
  | some chunks =>
    rw [made] at ran
    cases ran
    refine { ordered with
      accepted := ?_, place := ⟨rfl, ?_⟩, counted := counted, smooth := ?_ }
    · rw [List.append_nil, accepted]
      rfl
    · exact (chunk_spec made).1
    · simp only [List.head?_cons, Option.any_some, made, Option.isNone_some, Bool.or_false]
      intro quiet
      have smooth := ordered.smooth quiet
      rw [Smooth, loop] at smooth
      exact smooth

theorem Ordered.wrote (ordered : Ordered limit watched done current lost part)
    (ran : watched.writer.act .write = some writer) :
    ∃ part, Ordered limit ⟨writer, watched.accepted ++ [], watched.disturbed || false⟩ done current lost
      part := by
  rw [FrameWriter.act] at ran
  rcases loop : watched.writer.loop with _ | _ | ⟨frame, _ | ⟨chunk, chunks⟩⟩ | _ | _ <;>
    rw [loop] at ran <;> cases ran
  have place := ordered.place
  rw [loop] at place
  refine ⟨part ++ chunk, Ordered.still { ordered with
    written := ?_, place := ⟨place.1, ?_⟩, smooth := fun quiet => ?_ }⟩
  · rw [ordered.written, List.append_assoc]
  · rw [List.append_assoc]
    exact place.2
  · have smooth := ordered.smooth quiet
    rw [Smooth, loop] at smooth
    exact smooth

theorem Ordered.failed (ordered : Ordered limit watched done current lost part) {count : Nat}
    (ran : watched.writer.act (.fail count) = some writer) :
    ∃ part, Ordered limit ⟨writer, watched.accepted ++ [], watched.disturbed || true⟩ done current lost
      part := by
  rw [FrameWriter.act] at ran
  rcases loop : watched.writer.loop with _ | _ | ⟨frame, _ | ⟨chunk, chunks⟩⟩ | _ | _ <;>
    rw [loop] at ran <;> cases ran
  have place := ordered.place
  rw [loop] at place
  obtain ⟨rfl, whole⟩ := place
  refine ⟨part ++ chunk.take count,
    Ordered.upset { ordered with written := ?_, place := ?_, smooth := nofun }⟩
  · rw [ordered.written, List.append_assoc]
  · refine ⟨chunk.drop count ++ chunks.flatten, ?_⟩
    rw [← List.append_assoc, List.append_assoc part, List.take_append_drop, List.append_assoc]
    simpa using whole

theorem Ordered.finished (ordered : Ordered limit watched done current lost part)
    (ran : watched.writer.act .next = some writer) :
    Ordered limit ⟨writer, watched.accepted ++ [], watched.disturbed || false⟩ (done ++ current) [] lost
      [] := by
  rw [FrameWriter.act] at ran
  rcases loop : watched.writer.loop with _ | _ | ⟨frame, _ | ⟨chunk, chunks⟩⟩ | _ | _ <;>
    rw [loop] at ran <;> cases ran
  have place := ordered.place
  have counted := ordered.counted
  have bounded := ordered.bounded
  rw [loop] at place
  obtain ⟨rfl, whole⟩ := place
  rw [List.flatten_nil, List.append_nil] at whole
  subst whole
  refine Ordered.still { ordered with
    accepted := ?_, written := ?_, place := ⟨rfl, rfl⟩, counted := ?_, bounded := ?_,
    smooth := fun quiet => ?_ }
  · rw [ordered.accepted, List.append_assoc]
    rfl
  · rw [ordered.written]
    simp
  · simp only [List.flatten_append, List.length_append, List.flatten_cons, List.flatten_nil,
      List.append_nil, List.nil_append] at counted ⊢
    omega
  · dsimp only
    omega
  · have smooth := ordered.smooth quiet
    rw [Smooth, loop] at smooth
    exact smooth

theorem Ordered.moved (ordered : Ordered limit watched done current lost part) {loop : WriterLoop}
    {closed : Bool} {deadline : Deadline} {closings : Nat} {disturbed : Bool}
    (place : Place loop current part)
    (smooth : watched.disturbed = false → disturbed = false →
      Smooth { watched.writer with closed, deadline, loop, closings } current lost) :
    Ordered limit ⟨{ watched.writer with closed, deadline, loop, closings }, watched.accepted ++ [],
      watched.disturbed || disturbed⟩ done current lost part := by
  refine { ordered with accepted := ?_, place := place, smooth := fun quiet => ?_ }
  · rw [List.append_nil]
    exact ordered.accepted
  · obtain ⟨before, now⟩ := Bool.or_eq_false_iff.mp quiet
    exact smooth before now

theorem Ordered.outside (ordered : Ordered limit watched done current lost part)
    (out : left watched.writer.loop = true) {loop : WriterLoop} (out_ : left loop = true)
    {closed : Bool} {closings : Nat} :
    Ordered limit ⟨{ watched.writer with closed, loop, closings }, watched.accepted ++ [],
      watched.disturbed || false⟩ done current lost part := by
  refine ordered.moved ?_ fun quiet _ => ?_
  · have place := ordered.place
    cases before : watched.writer.loop <;> rw [before] at out place <;> cases out <;>
      cases loop <;> cases out_ <;> exact place
  · have smooth := ordered.smooth quiet
    rw [Smooth, out] at smooth
    rw [Smooth, out_]
    exact smooth

theorem Ordered.step (ordered : Ordered limit watched done current lost part) (action : FrameWriter.Action)
    (ran : watched.writer.act action = some writer) :
    ∃ done current lost part, Ordered limit ⟨writer, watched.accepted ++ accepts watched.writer action,
      watched.disturbed || disturbs watched.writer action⟩ done current lost part := by
  cases action with
  | enqueue batch =>
    rw [FrameWriter.act, Option.ite_none_left_eq_some] at ran
    refine ⟨done, current, lost, part, ?_⟩
    obtain ⟨-, ran⟩ := ran
    split_ifs at ran <;> cases ran <;> exact Ordered.still { ordered with }
  | offer => exact ⟨done, current, lost, part, ordered.offered ran⟩
  | finish =>
    rw [FrameWriter.act, Option.ite_none_left_eq_some] at ran
    refine ⟨done, current, lost, part, ?_⟩
    obtain ⟨-, ⟨⟩⟩ := ran
    rw [FrameWriter.finish]
    split_ifs with stopping
    · exact Ordered.still { ordered with }
    · have open_ := ordered.running (Bool.eq_false_iff.mpr (not_or.mp stopping).1)
      refine Ordered.still { ordered with
        kept := fun _ => ordered.kept (by simp [open_]), running := nofun, smooth := fun quiet => ?_ }
      have smooth := ordered.smooth quiet
      rw [Smooth] at smooth ⊢
      cases out : left watched.writer.loop with
      | false => exact nofun
      | true =>
        rw [out] at smooth
        exact absurd open_ smooth.1
  | cancel =>
    rw [FrameWriter.act, Option.ite_none_left_eq_some] at ran
    obtain ⟨-, ⟨⟩⟩ := ran
    exact ⟨done, current, _, part, ordered.cancelled⟩
  | launch =>
    rw [FrameWriter.act, Option.ite_none_right_eq_some] at ran
    obtain ⟨loop, ⟨⟩⟩ := ran
    have place := ordered.place
    rw [loop] at place
    refine ⟨done, current, lost, part, ordered.moved place fun quiet _ => ?_⟩
    have smooth := ordered.smooth quiet
    rw [Smooth, loop] at smooth
    exact smooth
  | receive mtu =>
    obtain ⟨current, after⟩ := ordered.received ran
    exact ⟨done, current, lost, [], after⟩
  | write =>
    obtain ⟨part, after⟩ := ordered.wrote ran
    exact ⟨done, current, lost, part, after⟩
  | fail count =>
    obtain ⟨part, after⟩ := ordered.failed ran
    exact ⟨done, current, lost, part, after⟩
  | next => exact ⟨_, _, lost, _, ordered.finished ran⟩
  | exhausted =>
    rw [FrameWriter.act, Option.ite_none_right_eq_some] at ran
    obtain ⟨⟨loop, empty, ended⟩, ⟨⟩⟩ := ran
    have place := ordered.place
    rw [loop] at place
    obtain ⟨rfl, rfl⟩ := place
    refine ⟨done, [], lost, [], ordered.moved List.nil_prefix fun quiet _ => ?_⟩
    have smooth := ordered.smooth quiet
    rw [Smooth, loop] at smooth
    exact ⟨ended, empty, rfl, ordered.kept smooth⟩
  | interrupt =>
    rw [FrameWriter.act, Option.ite_none_right_eq_some] at ran
    obtain ⟨loop, ⟨⟩⟩ := ran
    have place := ordered.place
    rw [loop] at place
    obtain ⟨rfl, rfl⟩ := place
    exact ⟨done, [], lost, [], ordered.moved List.nil_prefix fun _ => nofun⟩
  | leave =>
    rw [FrameWriter.act, Option.ite_none_right_eq_some] at ran
    obtain ⟨loop, ran⟩ := ran
    have out : left watched.writer.loop = true := by rw [loop, left]
    refine ⟨done, current, lost, part, ?_⟩
    rcases closeTransport_cases watched.writer with ⟨-, lost_⟩ | ⟨-, won⟩
    · rw [lost_] at ran
      cases ran
      exact ordered.outside out rfl
    · rw [won] at ran
      cases ran
      exact ordered.outside out rfl
  | close =>
    rw [FrameWriter.act, Option.ite_none_right_eq_some] at ran
    obtain ⟨loop, ⟨⟩⟩ := ran
    have out : left watched.writer.loop = true := by rw [loop, left]
    exact ⟨done, current, lost, part, ordered.outside out rfl⟩
  | expire =>
    rw [FrameWriter.act, Option.ite_none_right_eq_some] at ran
    obtain ⟨-, ⟨⟩⟩ := ran
    exact ⟨done, current, lost, part, Ordered.still { ordered with }⟩
  | deadlineLeave =>
    rw [FrameWriter.act, Option.ite_none_right_eq_some] at ran
    obtain ⟨-, ran⟩ := ran
    refine ⟨done, current, lost, part, ?_⟩
    rcases closeTransport_cases watched.writer with ⟨-, lost_⟩ | ⟨-, won⟩
    · rw [lost_] at ran
      cases ran
      exact Ordered.still { ordered with }
    · rw [won] at ran
      cases ran
      exact Ordered.still { ordered with }
  | deadlineClose =>
    rw [FrameWriter.act, Option.ite_none_right_eq_some] at ran
    obtain ⟨-, ⟨⟩⟩ := ran
    exact ⟨done, current, lost, part, Ordered.still { ordered with }⟩

theorem Ordered.written_prefix (ordered : Ordered limit watched done current lost part) :
    watched.writer.written <+: watched.accepted.flatten := by
  have started : part <+: current.flatten := by
    have place := ordered.place
    cases loop : watched.writer.loop <;> rw [loop] at place
    · rw [place.2]
      exact List.nil_prefix
    · rw [place.2]
      exact List.nil_prefix
    · rw [place.1, List.flatten_singleton, ← place.2]
      exact List.prefix_append _ _
    · exact place
    · exact place
    · exact place
  rw [ordered.written, ordered.accepted, List.flatten_append, List.flatten_append,
    List.prefix_append_right_inj]
  exact started.trans (List.prefix_append _ _)

theorem Ordered.all_written (ordered : Ordered limit watched done current lost part)
    (quiet : watched.disturbed = false) (out : left watched.writer.loop = true) :
    watched.writer.written = watched.accepted.flatten := by
  have smooth := ordered.smooth quiet
  rw [Smooth, out] at smooth
  obtain ⟨-, empty, rfl, rfl⟩ := smooth
  have nothing : part = [] := by
    have place := ordered.place
    cases loop : watched.writer.loop <;> rw [loop] at place out <;> cases out <;>
      exact List.prefix_nil.mp place
  rw [ordered.written, ordered.accepted, empty, nothing]
  simp

/-! ## Closing -/

/-- How many of the two have won the right to call `onClosed` and have not called it yet. -/
def closers (loop : WriterLoop) (deadline : Deadline) : Nat :=
  (if loop = .closing then 1 else 0) + if deadline = .closing then 1 else 0

theorem closers_closing {loop : WriterLoop} (other : loop ≠ .closing) (deadline : Deadline) :
    closers .closing deadline = closers loop deadline + 1 := by
  rw [closers, closers, if_pos rfl, if_neg other, Nat.zero_add, Nat.add_comm]

theorem closers_deadline_closing (loop : WriterLoop) {deadline : Deadline} (other : deadline ≠ .closing) :
    closers loop .closing = closers loop deadline + 1 := by
  rw [closers, closers, if_pos rfl, if_neg other]

structure Closes (writer : FrameWriter) : Prop where
  once : writer.closings + closers writer.loop writer.deadline = writer.closed.toNat
  stopped : writer.loop = .ended → writer.closed = true
  fresh : writer.finishing = false → writer.deadline = .unset

theorem Closes.moved {before : FrameWriter} (closes : Closes before) (running : before.loop ≠ .closing)
    (closings : writer.closings = before.closings) (closed : writer.closed = before.closed)
    (deadline : writer.deadline = before.deadline) (finishing : writer.finishing = before.finishing)
    (goesOn : writer.loop ≠ .closing) (stays : writer.loop ≠ .ended) : Closes writer := by
  refine ⟨?_, (absurd · stays), fun fresh => ?_⟩
  · have once := closes.once
    rw [closers, if_neg running] at once
    rwa [closers, if_neg goesOn, closings, closed, deadline]
  · rw [deadline]
    exact closes.fresh (finishing ▸ fresh)

theorem Closes.offered {before : FrameWriter} (closes : Closes before)
    (ran : before.act .offer = some writer) : Closes writer := by
  rw [FrameWriter.act] at ran
  rcases batch : before.batch with _ | _ | ⟨frame, rest⟩ <;> rw [batch] at ran
  · cases ran
  · cases ran
    exact { closes with }
  dsimp only at ran
  rcases offer_cases before frame with refused | ⟨-, -, sent⟩
  · rw [refused] at ran
    cases ran
    exact { closes with }
  · rw [sent] at ran
    cases ran
    exact { closes with }

theorem Closes.finished {before : FrameWriter} (closes : Closes before) : Closes before.finish := by
  rw [FrameWriter.finish]
  split_ifs with stopping
  · exact closes
  · have fresh := closes.fresh (Bool.eq_false_iff.mpr (not_or.mp stopping).1)
    have once := closes.once
    rw [fresh] at once
    exact { closes with once := once, fresh := nofun }

theorem Closes.cancelled {before : FrameWriter} (closes : Closes before) : Closes before.cancel := by
  refine { closes with once := ?_, fresh := nofun }
  have once := closes.once
  by_cases delayed : before.deadline = .delayed
  · rw [delayed] at once
    rw [FrameWriter.cancel, if_pos delayed]
    exact once
  · rw [FrameWriter.cancel, if_neg delayed]
    exact once

theorem Closes.left {before : FrameWriter} (closes : Closes before)
    (ran : before.act .leave = some writer) : Closes writer := by
  rw [FrameWriter.act, Option.ite_none_right_eq_some] at ran
  obtain ⟨loop, ran⟩ := ran
  have once := closes.once
  rw [loop] at once
  rcases closeTransport_cases before with ⟨closed, lost⟩ | ⟨closed, won⟩
  · rw [lost] at ran
    cases ran
    exact { closes with once := once, stopped := fun _ => closed }
  · rw [won] at ran
    cases ran
    rw [closed] at once
    refine { closes with once := ?_, stopped := nofun }
    rw [closers_closing (nofun : WriterLoop.leaving ≠ .closing)]
    exact congrArg (· + 1) once

theorem Closes.deadlineLeft {before : FrameWriter} (closes : Closes before)
    (ran : before.act .deadlineLeave = some writer) : Closes writer := by
  rw [FrameWriter.act, Option.ite_none_right_eq_some] at ran
  obtain ⟨due, ran⟩ := ran
  have once := closes.once
  rw [due] at once
  have stopping : before.finishing = false → False := fun fresh =>
    nomatch (closes.fresh fresh).symm.trans due
  rcases closeTransport_cases before with ⟨closed, lost⟩ | ⟨closed, won⟩
  · rw [lost] at ran
    cases ran
    exact { closes with once := once, fresh := fun fresh => (stopping fresh).elim }
  · rw [won] at ran
    cases ran
    rw [closed] at once
    refine { closes with once := ?_, stopped := fun _ => rfl, fresh := fun fresh => (stopping fresh).elim }
    rw [closers_deadline_closing _ (nofun : Deadline.due ≠ .closing)]
    exact congrArg (· + 1) once

theorem Closes.step {before : FrameWriter} (closes : Closes before) (action : FrameWriter.Action)
    (ran : before.act action = some writer) : Closes writer := by
  cases action with
  | enqueue batch =>
    rw [FrameWriter.act, Option.ite_none_left_eq_some] at ran
    obtain ⟨-, ran⟩ := ran
    split_ifs at ran <;> cases ran <;> exact { closes with }
  | offer => exact closes.offered ran
  | finish =>
    rw [FrameWriter.act, Option.ite_none_left_eq_some] at ran
    obtain ⟨-, ⟨⟩⟩ := ran
    exact closes.finished
  | cancel =>
    rw [FrameWriter.act, Option.ite_none_left_eq_some] at ran
    obtain ⟨-, ⟨⟩⟩ := ran
    exact closes.cancelled
  | launch | exhausted | interrupt =>
    rw [FrameWriter.act, Option.ite_none_right_eq_some] at ran
    obtain ⟨loop, ⟨⟩⟩ := ran
    exact closes.moved (by simp [loop]) rfl rfl rfl rfl nofun nofun
  | receive mtu =>
    rw [FrameWriter.act] at ran
    split at ran
    · rename_i loop _
      split at ran <;> cases ran <;> exact closes.moved (by simp [loop]) rfl rfl rfl rfl nofun nofun
    · cases ran
  | write | fail count | next =>
    rw [FrameWriter.act] at ran
    split at ran
    · rename_i loop
      cases ran
      exact closes.moved (by simp [loop]) rfl rfl rfl rfl nofun nofun
    · cases ran
  | leave => exact closes.left ran
  | close =>
    rw [FrameWriter.act, Option.ite_none_right_eq_some] at ran
    obtain ⟨loop, ⟨⟩⟩ := ran
    have once := closes.once
    rw [loop, closers_closing (nofun : WriterLoop.ended ≠ .closing)] at once
    refine { closes with once := (Nat.add_right_comm _ _ _).trans once, stopped := fun _ => ?_ }
    change before.closed = true
    by_contra open_
    rw [Bool.eq_false_iff.mpr open_] at once
    cases once
  | expire =>
    rw [FrameWriter.act, Option.ite_none_right_eq_some] at ran
    obtain ⟨delayed, ⟨⟩⟩ := ran
    have once := closes.once
    rw [delayed] at once
    exact { closes with
      once := once, fresh := fun fresh => nomatch (closes.fresh fresh).symm.trans delayed }
  | deadlineLeave => exact closes.deadlineLeft ran
  | deadlineClose =>
    rw [FrameWriter.act, Option.ite_none_right_eq_some] at ran
    obtain ⟨closing, ⟨⟩⟩ := ran
    have once := closes.once
    rw [closing, closers_deadline_closing _ (nofun : Deadline.over ≠ .closing)] at once
    exact { closes with
      once := (Nat.add_right_comm _ _ _).trans once
      fresh := fun fresh => nomatch (closes.fresh fresh).symm.trans closing }

theorem Closes.closings_le (closes : Closes writer) : writer.closings ≤ 1 := by
  have once := closes.once
  have atMost := writer.closed.toNat_le
  omega

theorem Closes.called_or_pending (closes : Closes writer) (ended : writer.loop = .ended) :
    writer.closings = 1 ∨ writer.closings = 0 ∧ writer.deadline = .closing := by
  have once := closes.once
  rw [closes.stopped ended, ended, closers, if_neg nofun] at once
  by_cases closing : writer.deadline = .closing
  · rw [if_pos closing] at once
    exact Or.inr ⟨by simpa using once, closing⟩
  · rw [if_neg closing] at once
    exact Or.inl (by simpa using once)

end

theorem Watched.Reached.closes {maxQueuedBytes : Nat} {watched : Watched}
    (reached : watched.Reached maxQueuedBytes) : Closes watched.writer := by
  induction reached with
  | start => exact ⟨rfl, nofun, fun _ => rfl⟩
  | act action _ ran ih => exact ih.step action ran

theorem Watched.Reached.ordered {maxQueuedBytes : Nat} {watched : Watched}
    (reached : watched.Reached maxQueuedBytes) :
    ∃ done current lost part, Ordered maxQueuedBytes watched done current lost part := by
  induction reached with
  | start =>
    exact ⟨[], [], [], [], rfl, rfl, ⟨rfl, rfl⟩, fun _ => rfl, fun _ => rfl, le_refl 0, Nat.zero_le _,
      rfl, fun _ => nofun⟩
  | act action reached ran ih =>
    obtain ⟨done, current, lost, part, ordered⟩ := ih
    exact ordered.step action ran

/-! ## The decoder of the peer -/

theorem flatten_frames (bodies : List (List UInt8)) :
    (bodies.map frameBytes).flatten = stream bodies [] := by
  rw [stream, List.append_nil, List.flatMap_def]

theorem hasFrame_nil : ¬ HasFrame [] := by
  rintro ⟨body, rest, -, front⟩
  have length := congrArg List.length front
  rw [frameBytes, List.length_append, List.length_append, length_beBytes, List.length_nil] at length
  omega

theorem reading_inOrder {bodies : List (List UInt8)} (small : ∀ body ∈ bodies, body.length ≤ 65535)
    (calls : List Format.Call) (cut : (Reading.start.run calls).pushed <+: stream bodies []) :
    ∃ k, InOrder bodies (Reading.start.run calls) k := by
  induction calls using List.reverseRecOn with
  | nil => exact ⟨0, Nat.zero_le _, rfl, rfl⟩
  | append_singleton calls call ih =>
    rw [Reading.run, List.foldl_append] at cut ⊢
    obtain ⟨k, inOrder⟩ := ih ((pushed_prefix_step _ call).trans cut)
    exact inOrder.step small hasFrame_nil cut

/-- Whatever the threads do and whatever MTUs the socket reports: what is written is a beginning of the
accepted frames, and the frames that wait are within the bound. `onClosed` is called at most once, and when the
coroutine has ended it has been called or is about to be, by the deadline. When the loop has been left, all
accepted frames are written, unless before that the writer was cancelled, interrupted or given an empty frame,
or the socket threw. The decoder of the peer returns the bodies of the frames in their order, however the
bytes arrive, and all of them once everything has arrived. -/
theorem writer_delivers {maxQueuedBytes : Nat} {watched : Watched}
    (reached : watched.Reached maxQueuedBytes) :
    watched.writer.written <+: watched.accepted.flatten ∧
    watched.writer.frames.flatten.length ≤ maxQueuedBytes ∧
    watched.writer.closings ≤ 1 ∧
    (watched.writer.loop = .ended →
      watched.writer.closings = 1 ∨ watched.writer.closings = 0 ∧ watched.writer.deadline = .closing) ∧
    (left watched.writer.loop = true → watched.disturbed = false →
      watched.writer.written = watched.accepted.flatten) ∧
    ∀ bodies : List (List UInt8), watched.accepted = bodies.map frameBytes →
      (∀ body ∈ bodies, body.length ≤ 65535) → ∀ calls : List Format.Call,
      (Reading.start.run calls).pushed <+: watched.writer.written →
      ∃ k, (Reading.start.run calls).returned = bodies.take k ∧
        (left watched.writer.loop = true → watched.disturbed = false →
          (Reading.start.run calls).pushed = watched.writer.written →
          (Reading.start.run calls).decoder.nextBody.1 = bodies[k]?) := by
  obtain ⟨done, current, lost, part, ordered⟩ := reached.ordered
  have waiting : watched.writer.frames.flatten.length ≤ maxQueuedBytes := by
    have counted := ordered.counted
    have bounded := ordered.bounded
    rw [ordered.limited] at bounded
    rw [List.flatten_append, List.length_append] at counted
    omega
  refine ⟨ordered.written_prefix, waiting, reached.closes.closings_le, reached.closes.called_or_pending,
    fun out quiet => ordered.all_written quiet out, fun bodies framed small calls arrived => ?_⟩
  have whole : watched.accepted.flatten = stream bodies [] := by
    rw [framed, flatten_frames]
  have cut : (Reading.start.run calls).pushed <+: stream bodies [] :=
    whole ▸ arrived.trans ordered.written_prefix
  obtain ⟨k, inOrder⟩ := reading_inOrder small calls cut
  refine ⟨k, inOrder.returned, fun out quiet all => inOrder.next_of_all small hasFrame_nil ?_⟩
  rw [all, ordered.all_written quiet out, whole]

def Watched.run (watched : Watched) : List FrameWriter.Action → Option Watched
  | [] => some watched
  | action :: actions => do
    let writer ← watched.writer.act action
    Watched.run ⟨writer, watched.accepted ++ accepts watched.writer action,
      watched.disturbed || disturbs watched.writer action⟩ actions

theorem Watched.Reached.run {maxQueuedBytes : Nat} {watched after : Watched}
    {actions : List FrameWriter.Action} (reached : watched.Reached maxQueuedBytes)
    (ran : watched.run actions = some after) :
    after.Reached maxQueuedBytes := by
  induction actions generalizing watched with
  | nil =>
    cases ran
    exact reached
  | cons action actions ih =>
    obtain ⟨writer, acted, rest⟩ := Option.bind_eq_some_iff.mp ran
    exact ih (.act action reached acted) rest

/-- A frame of 30 bytes is written in two chunks. The deadline runs out as the writer finishes, and the
coroutine ends before `onClosed` has been called. -/
def lastFrame : List FrameWriter.Action :=
  [.enqueue [frameBytes (List.replicate 28 7)], .offer, .offer, .launch, .receive 0, .write, .finish,
    .write, .next, .exhausted, .expire, .deadlineLeave, .leave]

theorem writer_delivers_lastFrame :
    ∃ watched, Watched.run ⟨.new 100, [], false⟩ lastFrame = some watched ∧
      watched.writer.loop = .ended ∧ watched.writer.closings = 0 ∧ watched.writer.deadline = .closing ∧
      watched.writer.written = frameBytes (List.replicate 28 7) ∧
      ∃ k, (Reading.start.run [.push watched.writer.written]).returned = [List.replicate 28 7].take k ∧
        (Reading.start.run [.push watched.writer.written]).decoder.nextBody.1 =
          [List.replicate 28 (7 : UInt8)][k]? := by
  have result : (Watched.run ⟨.new 100, [], false⟩ lastFrame).map
      (fun watched => (watched.writer.loop, watched.writer.closings, watched.disturbed, watched.accepted)) =
        some (.ended, 0, false, [frameBytes (List.replicate 28 7)]) := by decide +kernel
  obtain ⟨watched, ran, state⟩ := Option.map_eq_some_iff.mp result
  obtain ⟨ended, uncalled, quiet, accepted⟩ :
      watched.writer.loop = .ended ∧ watched.writer.closings = 0 ∧ watched.disturbed = false ∧
        watched.accepted = [frameBytes (List.replicate 28 7)] := by simpa using state
  have out : left watched.writer.loop = true := by rw [ended, left]
  obtain ⟨-, -, -, called, all, decoded⟩ := writer_delivers (Watched.Reached.run .start ran)
  have closing : watched.writer.deadline = .closing := by
    rcases called ended with once | ⟨-, closing⟩
    · exact absurd (once.symm.trans uncalled) nofun
    · exact closing
  have written := all out quiet
  rw [accepted, List.flatten_singleton] at written
  obtain ⟨k, returned, next⟩ := decoded [List.replicate 28 7] accepted (by decide)
    [.push watched.writer.written] List.prefix_rfl
  exact ⟨watched, ran, ended, uncalled, closing, written, k, returned, next out quiet rfl⟩

end Racnet.Proof.Mesh
