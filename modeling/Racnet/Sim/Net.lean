import Mathlib.Data.Prod.Lex
import Racnet.Lib.Exec
import Racnet.Lib.Least

namespace Racnet.Sim
open Lib

structure SplitMix64 where
  state : UInt64
  deriving DecidableEq

/-- The arithmetic wraps. -/
def SplitMix64.nextU64 (rng : SplitMix64) : UInt64 × SplitMix64 :=
  let state := rng.state + 0x9E3779B97F4A7C15
  let z := (state ^^^ (state >>> 30)) * 0xBF58476D1CE4E5B9
  let z := (z ^^^ (z >>> 27)) * 0x94D049BB133111EB
  (z ^^^ (z >>> 31), ⟨state⟩)

structure NodeId where
  index : Nat
  deriving DecidableEq

inductive LinkKind where
  | stream
  | datagram
  deriving DecidableEq, Repr

structure LinkConfig where
  latencyUs : UInt64
  mtu : Nat
  kind : LinkKind
  lossPerMille : UInt16
  deriving DecidableEq

inductive Delivery where
  | data (sender : NodeId) (bytes : List UInt8)
  | linkDown (peer : NodeId)
  deriving DecidableEq

inductive SimError where
  | noLink
  | linkDown
  | tooLarge (size : Nat)
  deriving DecidableEq, Repr

def SimError.toString : SimError → String
  | noLink => "no link between nodes"
  | linkDown => "link is down"
  | tooLarge size => s!"message of {size} bytes exceeds link mtu"

inductive EventKind where
  | data (sender : NodeId) (bytes : List UInt8)
  | linkDown (peer : NodeId)
  deriving DecidableEq

structure Event where
  atUs : UInt64
  seq : UInt64
  dest : NodeId
  link : Nat
  kind : EventKind
  deriving DecidableEq

/-- The order in which events happen. -/
def Event.key (event : Event) : Nat ×ₗ Nat := toLex (event.atUs.toNat, event.seq.toNat)

structure Link where
  a : NodeId
  b : NodeId
  config : LinkConfig
  up : Bool
  deriving DecidableEq

/-- The pending events are listed in the order in which they were scheduled. -/
structure SimNet where
  nowUs : UInt64
  rng : SplitMix64
  inboxes : List (List Delivery)
  links : List Link
  events : List Event
  seq : UInt64
  groups : Option (List (Option Nat))
  deriving DecidableEq

/-- Addition of `u64`s: an overflow is a panic. -/
def checkedAdd (a b : UInt64) : Option UInt64 :=
  if a.toNat + b.toNat < 2 ^ 64 then some (a + b) else none

/-- The index of the link between two nodes. -/
def position (links : List Link) (a b : NodeId) : Option Nat :=
  links.findIdx? fun l => decide (l.a = a ∧ l.b = b ∨ l.a = b ∧ l.b = a)

namespace SimNet

def new (seed : UInt64) : SimNet := ⟨0, ⟨seed⟩, [], [], [], 0, none⟩

def addNode (net : SimNet) : NodeId × SimNet :=
  (⟨net.inboxes.length⟩, { net with inboxes := net.inboxes ++ [[]] })

/-- A link that exists is brought back up, and what is pending on it is discarded. -/
def connect (net : SimNet) (a b : NodeId) (config : LinkConfig) : SimNet :=
  match position net.links a b with
  | some idx =>
    { net with
      events := net.events.filter fun event => event.link ≠ idx
      links := net.links.modify idx fun link => { link with config, up := true } }
  | none => { net with links := net.links ++ [⟨a, b, config, true⟩] }

/-! The functions below return `none` where the program panics. -/

def assign (group : Nat) (assignment : List (Option Nat)) (node : NodeId) :
    Option (List (Option Nat)) :=
  if node.index < assignment.length then some (assignment.set node.index (some group)) else none

def partition (net : SimNet) (groups : List (List NodeId)) : Option SimNet := do
  let assignment ← groups.zipIdx.foldlM (fun assignment (members, group) =>
    members.foldlM (assign group) assignment) (List.replicate net.inboxes.length none)
  return { net with groups := some assignment }

def heal (net : SimNet) : SimNet := { net with groups := none }

def reachable (net : SimNet) (a b : NodeId) : Option Bool :=
  match net.groups with
  | none => some true
  | some assignment => do
    let groupA ← assignment[a.index]?
    let groupB ← assignment[b.index]?
    match groupA, groupB with
    | some ga, some gb => some (ga == gb)
    | _, _ => some false

def schedule (net : SimNet) (atUs : UInt64) (dest : NodeId) (link : Nat) (kind : EventKind) :
    Option SimNet := do
  let seq ← checkedAdd net.seq 1
  return { net with seq, events := net.events ++ [⟨atUs, seq, dest, link, kind⟩] }

/-- Takes the link down. -/
def drop (net : SimNet) (idx : Nat) : SimNet :=
  { net with links := net.links.modify idx fun link => { link with up := false } }

/-- Whether a message is lost; the generator is not asked on a link without loss. -/
def draw (net : SimNet) (loss : UInt16) : Bool × SimNet :=
  if loss > 0 then
    let (value, rng) := net.rng.nextU64
    (value.toNat % 1000 < loss.toNat, { net with rng })
  else (false, net)

def sendDatagram (net : SimNet) (lost : Bool) (arrival : UInt64) (idx mtu : Nat)
    (sender dest : NodeId) (bytes : List UInt8) : Option (Except SimError Unit × SimNet) :=
  if bytes.length > mtu then some (.error (.tooLarge bytes.length), net)
  else if lost then some (.ok (), net)
  else do
    let net ← net.schedule arrival dest idx (.data sender bytes)
    return (.ok (), net)

/-- `lost || !self.reachable(from, to)` -/
def severed (net : SimNet) (lost : Bool) (sender dest : NodeId) : Option Bool :=
  if lost then some true else (net.reachable sender dest).map not

def sendStream (net : SimNet) (lost : Bool) (arrival : UInt64) (idx mtu : Nat)
    (sender dest : NodeId) (bytes : List UInt8) : Option (Except SimError Unit × SimNet) := do
  if ← net.severed lost sender dest then
    let net ← (net.drop idx).schedule arrival dest idx (.linkDown sender)
    let net ← net.schedule arrival sender idx (.linkDown dest)
    return (.error .linkDown, net)
  else
    let segments ← chunks mtu bytes
    let net ← segments.foldlM (fun net segment =>
      net.schedule arrival dest idx (.data sender segment)) net
    return (.ok (), net)

def send (net : SimNet) (sender dest : NodeId) (bytes : List UInt8) :
    Option (Except SimError Unit × SimNet) :=
  match position net.links sender dest with
  | none => some (.error .noLink, net)
  | some idx => do
    let link ← net.links[idx]?
    if link.config.kind = .stream ∧ link.up = false then some (.error .linkDown, net)
    else
      let arrival ← checkedAdd net.nowUs link.config.latencyUs
      let (lost, net) := net.draw link.config.lossPerMille
      match link.config.kind with
      | .datagram => net.sendDatagram lost arrival idx link.config.mtu sender dest bytes
      | .stream => net.sendStream lost arrival idx link.config.mtu sender dest bytes

def deliver (net : SimNet) (node : NodeId) (delivery : Delivery) : Option SimNet :=
  if node.index < net.inboxes.length then
    some { net with inboxes := net.inboxes.modify node.index (· ++ [delivery]) }
  else none

/-- Data that crosses a partition is lost, and takes a stream link down. -/
def arriveData (net : SimNet) (event : Event) (sender : NodeId) (bytes : List UInt8) :
    Option SimNet := do
  let link ← net.links[event.link]?
  let reachable ← net.reachable sender event.dest
  match link.config.kind with
  | .datagram => if reachable then net.deliver event.dest (.data sender bytes) else some net
  | .stream =>
    if reachable && link.up then net.deliver event.dest (.data sender bytes)
    else if link.up then
      let net ← (net.drop event.link).deliver event.dest (.linkDown sender)
      net.deliver sender (.linkDown event.dest)
    else some net

def process (net : SimNet) (event : Event) : Option SimNet :=
  match event.kind with
  | .data sender bytes => net.arriveData event sender bytes
  | .linkDown peer => net.deliver event.dest (.linkDown peer)

/-- Processes the next event; `false` when there is none. -/
def step (net : SimNet) : Option (Bool × SimNet) :=
  match popLeast Event.key net.events with
  | none => some (false, net)
  | some (event, events) => do
    let net ← { net with nowUs := event.atUs, events }.process event
    return (true, net)

def takeInbox (net : SimNet) (node : NodeId) : Option (List Delivery × SimNet) := do
  let inbox ← net.inboxes[node.index]?
  return (inbox, { net with inboxes := net.inboxes.set node.index [] })

end SimNet

end Racnet.Sim
