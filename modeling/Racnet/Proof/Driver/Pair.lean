import Mathlib.Logic.Relation
import Racnet.Proof.Driver.Script
import Racnet.Proof.Driver.Log

/-!
# Two drivers and the streams between them
-/

namespace Racnet.Proof.Driver
open Lib Noise Store Sync Wire Link
open Proof.Channel (End)
open Proof.Format (nextBody_some beBytes_two)

/-! ## Bodies on their way -/

/-- The stream begins with these bodies. A part at the end of it may be lost, unless it is `whole`. -/
structure Carries (bodies : List (List UInt8)) (stream : List UInt8) (whole : Prop) : Prop where
  small : ∀ body ∈ bodies, body.length ≤ 65535
  front : stream <+: bodies.flatMap frameBytes
  all : whole → stream = bodies.flatMap frameBytes

variable {bodies more : List (List UInt8)} {stream rest : List UInt8} {whole whole' : Prop}

theorem carries_nil (whole : Prop) : Carries [] [] whole := ⟨by simp, List.prefix_rfl, fun _ => rfl⟩

theorem Carries.next {decoder after : FrameDecoder} {body : List UInt8}
    (carries : Carries bodies (decoder.buf ++ rest) whole)
    (next : decoder.nextBody = (some body, after)) :
    ∃ later, bodies = body :: later ∧ Carries later (after.buf ++ rest) whole := by
  obtain ⟨small, buffer⟩ := nextBody_some next
  cases bodies with
  | nil =>
    have empty := List.prefix_nil.mp carries.front
    rw [buffer, frameBytes, beBytes_two] at empty
    cases empty
  | cons first later =>
    obtain ⟨inside, others⟩ := List.forall_mem_cons.mp carries.small
    obtain ⟨tail, front⟩ := carries.front
    rw [List.flatMap_cons, buffer, List.append_assoc, List.append_assoc] at front
    obtain ⟨rfl, left⟩ := frameBytes_append_inj small inside front
    refine ⟨later, rfl, others, ⟨tail, (List.append_assoc _ _ _).trans left⟩, fun all => ?_⟩
    have same := carries.all all
    rw [List.flatMap_cons, buffer, List.append_assoc] at same
    exact List.append_cancel_left same

theorem Carries.append (carries : Carries bodies stream whole) (complete : whole)
    (small : ∀ body ∈ more, body.length ≤ 65535) :
    Carries (bodies ++ more) (stream ++ more.flatMap frameBytes) whole' := by
  have same : stream ++ more.flatMap frameBytes = (bodies ++ more).flatMap frameBytes := by
    rw [carries.all complete, List.flatMap_append]
  refine ⟨?_, same ▸ List.prefix_rfl, fun _ => same⟩
  rw [List.forall_mem_append]
  exact ⟨carries.small, small⟩

theorem Carries.lose (carries : Carries bodies stream whole)
    (small : ∀ body ∈ more, body.length ≤ 65535) (front : rest <+: stream) (closed : ¬ whole') :
    Carries (bodies ++ more) rest whole' := by
  refine ⟨?_, ?_, fun complete => absurd complete closed⟩
  · rw [List.forall_mem_append]
    exact ⟨carries.small, small⟩
  · rw [List.flatMap_append]
    exact (front.trans carries.front).trans (List.prefix_append _ _)

/-! ## Pairs -/

/-- A driver, the bytes on their way to it, what it has reported and what it has read and written. -/
structure Side where
  driver : LinkDriver
  stream : List UInt8 := []
  events : List LinkEvent := []
  log : Log := {}

def Side.unread (side : Side) : List UInt8 := side.driver.decoder.buf ++ side.stream

def Side.Live (side : Side) : Prop := side.driver.isClosed = false

abbrev Pair := End → Side

/-- After a call of one driver its frames are on their way to the other one. -/
def Pair.after (pair : Pair) (side : End) (driver : LinkDriver) (out : LinkOutput) (log : Log) : Pair :=
  fun other =>
    if other = side then
      { pair side with
        driver
        events := (pair side).events ++ out.events
        log := (pair side).log.andThen log }
    else { pair other with stream := (pair other).stream ++ out.frames.flatten }

def Pair.take (pair : Pair) (side : End) (rest : List UInt8) : Pair :=
  fun other => if other = side then { pair side with stream := rest } else pair other

section
variable (pair : Pair) (side : End) (driver after : LinkDriver) (out : LinkOutput) (log : Log)

@[simp] theorem after_self : pair.after side driver out log side =
    { pair side with
      driver
      events := (pair side).events ++ out.events
      log := (pair side).log.andThen log } := if_pos rfl

@[simp] theorem after_peer : pair.after side driver out log side.peer =
    { pair side.peer with stream := (pair side.peer).stream ++ out.frames.flatten } :=
  if_neg side.peer_ne

@[simp] theorem take_self (rest : List UInt8) :
    pair.take side rest side = { pair side with stream := rest } := if_pos rfl

@[simp] theorem take_peer (rest : List UInt8) : pair.take side rest side.peer = pair side.peer :=
  if_neg side.peer_ne

theorem after_after (out' : LinkOutput) (log' : Log) :
    (pair.after side driver out log).after side after out' log' =
      pair.after side after ⟨out.frames ++ out'.frames, out.events ++ out'.events⟩
        (log.andThen log') := by
  funext other
  by_cases same : other = side
  · subst same
    simp [Log.andThen]
  · simp [Pair.after, same]

end

theorem End.eq_or_peer (side other : End) : other = side ∨ other = side.peer := by
  cases side <;> cases other <;> simp [Channel.End.peer]

/-- The bodies that a driver has yet to read, as long as it reads. -/
def Delivers (pair : Pair) (side : End) (bodies : List (List UInt8)) : Prop :=
  (pair side).Live → Carries bodies (pair side).unread (pair side.peer).Live

section
variable {pair : Pair} {side : End} {after : LinkDriver} {out : LinkOutput} {log : Log}

theorem Delivers.read {decoder : FrameDecoder} {body : List UInt8}
    (delivers : Delivers pair side bodies) (live : (pair side).Live)
    (next : (pair side).driver.decoder.nextBody = (some body, decoder)) :
    ∃ later, bodies = body :: later ∧ ∀ {after out log}, after.decoder = decoder →
      Delivers (pair.after side after out log) side later := by
  obtain ⟨later, rfl, carries⟩ := (delivers live).next next
  refine ⟨later, rfl, fun {after out log} kept _ => ?_⟩
  rw [Side.unread, after_self, after_peer]
  subst kept
  exact carries

theorem Delivers.write (delivers : Delivers pair side.peer bodies) (live : (pair side).Live)
    (small : ∀ body ∈ more, body.length ≤ 65535)
    (sent : out.frames = more.map frameBytes ∨ out.frames = [] ∧ after.isClosed = true) :
    Delivers (pair.after side after out log) side.peer (bodies ++ more) := by
  intro reads
  rw [Side.Live, after_peer] at reads
  have carries := delivers reads
  rw [Channel.End.peer_peer] at carries ⊢
  rw [Side.unread, after_peer, after_self]
  dsimp only
  rw [← List.append_assoc]
  rcases sent with sent | ⟨quiet, ended⟩
  · rw [sent, ← List.flatMap_def]
    exact carries.append live small
  · rw [quiet, List.flatten_nil, List.append_nil]
    refine carries.lose small List.prefix_rfl fun live' => ?_
    cases ended.symm.trans live'

theorem delivers_quiet (side : End) (delivers : Delivers pair side.peer bodies)
    (live : (pair side).Live) (quiet : out.frames = []) :
    Delivers (pair.after side after out log) side.peer bodies := by
  have written : Delivers (pair.after side after out log) side.peer (bodies ++ []) :=
    delivers.write live (List.forall_mem_nil _) (Or.inl quiet)
  rwa [List.append_nil] at written

theorem delivers_first {body : List UInt8} (side : End) (delivers : Delivers pair side.peer [])
    (live : (pair side).Live) (small : body.length ≤ 65535) (sent : out.frames = [frameBytes body]) :
    Delivers (pair.after side after out log) side.peer [body] :=
  delivers.write live (List.forall_mem_singleton.mpr small) (Or.inl sent)

end

section
variable [Sha256] [HmacSha256] [X25519] [ChaCha20Poly1305] [Ed25519]

/-- A call of one of two drivers, with any store. The streams are delivered in any chunks. -/
inductive Pair.Step : Pair → Pair → Prop where
  | deliver {pair : Pair} (side : End) (store : EntryStore) (chunk rest : List UInt8) (nowUs : UInt64)
      {after : LinkDriver} {store' : EntryStore} {out : LinkOutput}
      (cut : (pair side).stream = chunk ++ rest)
      (ran : perform (pair side).driver store (.onBytes chunk nowUs) = some (after, store', out)) :
      Step pair ((pair.take side rest).after side after out
        (callLog (pair side).driver store (.onBytes chunk nowUs)))
  | call {pair : Pair} (side : End) (store : EntryStore) (call : Call)
      {after : LinkDriver} {store' : EntryStore} {out : LinkOutput}
      (quiet : ∀ bytes nowUs, call ≠ .onBytes bytes nowUs) (started : call = .start → side = .right)
      (ran : perform (pair side).driver store call = some (after, store', out)) :
      Step pair (pair.after side after out (callLog (pair side).driver store call))

def Pair.new (left right : LinkDriver) : Pair
  | .left => { driver := left }
  | .right => { driver := right }

/-- The pairs that are reached when the left driver is started and then any calls are made. -/
inductive Pair.Reached (left right : LinkDriver) : Pair → Prop where
  | started {store store' : EntryStore} {after : LinkDriver} {out : LinkOutput}
      (ran : perform left store .start = some (after, store', out)) :
      Reached left right ((Pair.new left right).after .left after out {})
  | step {pair pair' : Pair} (reached : Reached left right pair) (step : Pair.Step pair pair') :
      Reached left right pair'

end

end Racnet.Proof.Driver
