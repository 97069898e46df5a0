import Mathlib.Data.List.Induction
import Mathlib.Data.List.ReduceOption
import Racnet.Proof.Format.RoundTrip

/-!
# Frames from a stream

A decoder is pushed a stream in pieces and asked for bodies in between. However the stream is cut and
whenever the decoder is asked, the bodies come out in order, and what has not come out is still there.
-/

namespace Racnet.Proof.Format
open Lib Wire

/-! ## One call -/

def HasFrame (bytes : List UInt8) : Prop :=
  ∃ body rest, body.length ≤ 65535 ∧ bytes = frameBytes body ++ rest

theorem nextBody_push {decoder rest : FrameDecoder} {body : List UInt8}
    (next : decoder.nextBody = (some body, rest)) (more : List UInt8) :
    (decoder.push more).nextBody = (some body, rest.push more) := by
  rw [FrameDecoder.nextBody] at next
  split at next
  · rename_i high low tail split
    dsimp only at next
    split_ifs at next with short
    · cases next
    obtain ⟨taken, rfl⟩ := Prod.mk.inj next
    have long := Nat.not_lt.mp short
    rw [FrameDecoder.push, FrameDecoder.nextBody, split]
    simp only [List.cons_append, List.length_append]
    rw [if_neg (by omega), List.take_append_of_le_length long, List.drop_append_of_le_length long,
      Option.some.inj taken]
    rfl
  · cases next

theorem nextBody_some {decoder after : FrameDecoder} {body : List UInt8}
    (next : decoder.nextBody = (some body, after)) :
    body.length ≤ 65535 ∧ decoder.buf = frameBytes body ++ after.buf := by
  rw [FrameDecoder.nextBody] at next
  split at next
  · rename_i high low rest split
    dsimp only at next
    split_ifs at next with short
    · cases next
    obtain ⟨taken, rfl⟩ := Prod.mk.inj next
    obtain rfl := Option.some.inj taken
    have bound : ofBe [high, low] < 256 ^ 2 := ofBe_lt [high, low]
    have length : (rest.take (ofBe [high, low])).length = ofBe [high, low] :=
      List.length_take_of_le (Nat.not_lt.mp short)
    have two : beBytes 2 (ofBe [high, low]) = [high, low] := beBytes_ofBe [high, low]
    refine ⟨by omega, ?_⟩
    rw [split, frameBytes, length, two, List.append_assoc, List.take_append_drop]
    rfl
  · cases next

theorem nextBody_shorter {decoder after : FrameDecoder} {body : List UInt8}
    (next : decoder.nextBody = (some body, after)) : after.buf.length < decoder.buf.length := by
  rw [(nextBody_some next).2, frameBytes, List.length_append, List.length_append, length_beBytes]
  omega

theorem nextBody_none {decoder after : FrameDecoder} (next : decoder.nextBody = (none, after)) :
    after = decoder := by
  rw [FrameDecoder.nextBody] at next
  split at next
  · dsimp only at next
    split_ifs at next with short
    · exact (Prod.mk.inj next).2.symm
    · cases next
  · exact (Prod.mk.inj next).2.symm

theorem nextBody_eq_none_iff (decoder : FrameDecoder) :
    decoder.nextBody.1 = none ↔ ¬ HasFrame decoder.buf := by
  constructor
  · rintro none ⟨body, rest, small, front⟩
    have next := nextBody_frameBytes (Nat.lt_succ_of_le small) rest
    rw [show decoder = ⟨frameBytes body ++ rest⟩ from congrArg FrameDecoder.mk front, next] at none
    cases none
  · intro incomplete
    rcases next : decoder.nextBody with ⟨_ | body, after⟩
    · rfl
    · exact absurd ⟨body, after.buf, nextBody_some next⟩ incomplete

/-! ## Any schedule -/

inductive Call where
  | push (bytes : List UInt8)
  | nextBody

/-- A decoder in use: what was pushed so far, and what the calls of `next_body` returned. -/
structure Reading where
  decoder : FrameDecoder
  pushed : List UInt8
  results : List (Option (List UInt8))

namespace Reading

def start : Reading := ⟨.new, [], []⟩

def step (r : Reading) : Call → Reading
  | .push bytes => { r with decoder := r.decoder.push bytes, pushed := r.pushed ++ bytes }
  | .nextBody =>
    let (result, decoder) := r.decoder.nextBody
    { r with decoder, results := r.results ++ [result] }

def run (r : Reading) (calls : List Call) : Reading := calls.foldl step r

def returned (r : Reading) : List (List UInt8) := r.results.reduceOption

end Reading

def stream (bodies : List (List UInt8)) (tail : List UInt8) : List UInt8 :=
  bodies.flatMap frameBytes ++ tail

/-- What holds between two calls: the returned bodies are the first ones, and the buffer is what was
pushed behind them. -/
structure InOrder (bodies : List (List UInt8)) (r : Reading) (k : Nat) : Prop where
  le : k ≤ bodies.length
  returned : r.returned = bodies.take k
  unread : (bodies.take k).flatMap frameBytes ++ r.decoder.buf = r.pushed

theorem InOrder.push {bodies : List (List UInt8)} {r : Reading} {k : Nat} (inOrder : InOrder bodies r k)
    (bytes : List UInt8) : InOrder bodies (r.step (.push bytes)) k where
  le := inOrder.le
  returned := inOrder.returned
  unread := by
    rw [Reading.step, ← inOrder.unread, List.append_assoc]
    rfl

theorem stream_split (bodies : List (List UInt8)) (tail : List UInt8) (k : Nat) :
    stream bodies tail = (bodies.take k).flatMap frameBytes ++ stream (bodies.drop k) tail := by
  rw [stream, stream, ← List.append_assoc, ← List.flatMap_append, List.take_append_drop]

section
variable {bodies : List (List UInt8)} (small : ∀ body ∈ bodies, body.length ≤ 65535)
  {tail : List UInt8} (incomplete : ¬ HasFrame tail) {r : Reading} {k : Nat}
  (inOrder : InOrder bodies r k)
include small incomplete inOrder

theorem InOrder.next_of_all (all : r.pushed = stream bodies tail) :
    r.decoder.nextBody.1 = bodies[k]? := by
  have unread : r.decoder = ⟨stream (bodies.drop k) tail⟩ := by
    have whole := inOrder.unread
    rw [all, stream_split bodies tail k] at whole
    exact congrArg FrameDecoder.mk (List.append_cancel_left whole)
  rw [← Nat.add_zero k, ← List.getElem?_drop, unread]
  cases left : bodies.drop k with
  | nil => exact (nextBody_eq_none_iff _).mpr incomplete
  | cons body later =>
    have mem : body ∈ bodies.drop k := by
      rw [left]
      exact List.mem_cons_self
    have next := nextBody_frameBytes (Nat.lt_succ_of_le (small body (List.mem_of_mem_drop mem)))
      (stream later tail)
    rw [stream, List.flatMap_cons, List.append_assoc, ← stream, next]
    rfl

theorem InOrder.next (cut : r.pushed <+: stream bodies tail) {body : List UInt8} {after : FrameDecoder}
    (next : r.decoder.nextBody = (some body, after)) : bodies[k]? = some body := by
  obtain ⟨more, all⟩ := cut
  have whole := (inOrder.push more).next_of_all small incomplete all
  rw [Reading.step, nextBody_push next more] at whole
  exact whole.symm

theorem InOrder.step {call : Call} (cut : (r.step call).pushed <+: stream bodies tail) :
    ∃ k, InOrder bodies (r.step call) k := by
  cases call with
  | push bytes => exact ⟨k, inOrder.push bytes⟩
  | nextBody =>
    rcases next : r.decoder.nextBody with ⟨_ | body, after⟩
    · refine ⟨k, inOrder.le, ?_, ?_⟩
      · rw [Reading.step, next, ← inOrder.returned]
        simp [Reading.returned, List.reduceOption]
      · rw [Reading.step, next, nextBody_none next]
        exact inOrder.unread
    · have found := inOrder.next small incomplete cut next
      have taken : bodies.take (k + 1) = bodies.take k ++ [body] := by
        rw [List.take_add_one, found]
        rfl
      refine ⟨k + 1, ?_, ?_, ?_⟩
      · obtain ⟨lt, -⟩ := List.getElem?_eq_some_iff.mp found
        exact lt
      · rw [Reading.step, next, taken, ← inOrder.returned]
        simp [Reading.returned, List.reduceOption]
      · rw [Reading.step, next, taken, List.flatMap_append, List.append_assoc, ← inOrder.unread,
          (nextBody_some next).2]
        simp

end

theorem pushed_prefix_step (r : Reading) (call : Call) : r.pushed <+: (r.step call).pushed := by
  cases call with
  | push bytes => exact List.prefix_append r.pushed bytes
  | nextBody => exact List.prefix_rfl

/-- For every schedule of calls that has pushed a beginning of the stream: the bodies returned are the
first ones of the stream, in order; the buffer holds exactly what was pushed and not returned; the next
call returns the next body, or nothing because no complete frame is buffered; and with the whole stream
pushed it does return the next body for as long as there is one. -/
theorem reassembly_exact {bodies : List (List UInt8)} (small : ∀ body ∈ bodies, body.length ≤ 65535)
    {tail : List UInt8} (incomplete : ¬ HasFrame tail) (calls : List Call)
    (cut : (Reading.start.run calls).pushed <+: stream bodies tail) :
    ∃ k ≤ bodies.length,
      (Reading.start.run calls).returned = bodies.take k ∧
      (bodies.take k).flatMap frameBytes ++ (Reading.start.run calls).decoder.buf =
        (Reading.start.run calls).pushed ∧
      ((Reading.start.run calls).decoder.nextBody.1 = none ∧
          ¬ HasFrame (Reading.start.run calls).decoder.buf ∨
        ∃ body, (Reading.start.run calls).decoder.nextBody.1 = some body ∧ bodies[k]? = some body) ∧
      ((Reading.start.run calls).pushed = stream bodies tail →
        (Reading.start.run calls).decoder.nextBody.1 = bodies[k]?) := by
  have holds : ∃ k, InOrder bodies (Reading.start.run calls) k := by
    -- Pushing can only have made the pushed bytes longer, so every earlier state is covered too.
    induction calls using List.reverseRecOn with
    | nil => exact ⟨0, Nat.zero_le _, rfl, rfl⟩
    | append_singleton calls call ih =>
      rw [Reading.run, List.foldl_append] at cut ⊢
      obtain ⟨k, inOrder⟩ := ih ((pushed_prefix_step _ call).trans cut)
      exact inOrder.step small incomplete cut
  obtain ⟨k, inOrder⟩ := holds
  refine ⟨k, inOrder.le, inOrder.returned, inOrder.unread, ?_, inOrder.next_of_all small incomplete⟩
  rcases next : (Reading.start.run calls).decoder.nextBody with ⟨_ | body, after⟩
  · exact Or.inl ⟨rfl, (nextBody_eq_none_iff _).mp (by rw [next])⟩
  · exact Or.inr ⟨body, rfl, inOrder.next small incomplete cut next⟩

theorem reassembly_exact_split :
    ∃ k ≤ 1, (Reading.start.run [.push [0], .nextBody, .push [1, 7, 0], .nextBody]).returned =
        [[7]].take k ∧
      (Reading.start.run [.push [0], .nextBody, .push [1, 7, 0], .nextBody]).decoder.nextBody.1 =
        ([[7]] : List (List UInt8))[k]? := by
  obtain ⟨k, le, returned, -, -, next⟩ := @reassembly_exact [[7]] (by decide) [0]
    ((nextBody_eq_none_iff ⟨[0]⟩).mp rfl) [.push [0], .nextBody, .push [1, 7, 0], .nextBody]
    ⟨[], rfl⟩
  exact ⟨k, le, returned, next rfl⟩

end Racnet.Proof.Format
