import Mathlib.Data.Multiset.Filter
import Racnet.Proof.Negentropy.Exchange
import Racnet.Proof.Sessions.Abort
import Racnet.Proof.Storage.Growth

/-!
# Two syncers whose messages arrive in any order

Either side opens sessions and inserts entries at any time, and any message that is on its way may be the
next to arrive.
-/

namespace Racnet.Proof.Sessions
open Lib Store Wire Sync

/-- A syncer with its store, and the messages on their way to it. -/
structure Party where
  syncer : Syncer
  store : EntryStore
  inbox : Multiset Message

abbrev Parties := LinkRole → Party

/-- A session that was opened: its window, the store of the opener at that time, and the store of the
other side when the RECON_INIT arrived there. -/
structure Opening where
  window : SortKeyWindow
  offered : EntryStore
  met : Option EntryStore

/-- The sessions that were ever opened, by their opener and sid. -/
abbrev Openings := LinkRole → UInt64 → Option Opening

/-- Two parties, and what has happened: the sessions opened and what `handle_message` has returned. -/
structure Network where
  parties : Parties
  openings : Openings
  outcomes : List Outcome

inductive Move where
  | insert (role : LinkRole) (entry : Entry)
  | openSession (role : LinkRole) (window : SortKeyWindow)
  | deliver (role : LinkRole) (msg : Message)

def handOver (parties : Parties) (role : LinkRole) (party : Party) (sent : List Message) : Parties :=
  fun side =>
    if side = role then party
    else { parties side with inbox := (parties side).inbox + (sent : Multiset Message) }

def remember (openings : Openings) (opener : LinkRole) (sid : UInt64) (opening : Opening) : Openings :=
  fun side other => if side = opener ∧ other = sid then some opening else openings side other

/-- A RECON_INIT that arrives meets the store of its receiver. -/
def meet (openings : Openings) (role : LinkRole) (store : EntryStore) : Message → Openings
  | .reconInit init =>
    match openings (otherRole role) init.sid with
    | some opening => remember openings (otherRole role) init.sid { opening with met := some store }
    | none => openings
  | _ => openings

namespace Network

def start (config : LinkRole → SyncConfig) (store : LinkRole → EntryStore) : Network where
  parties role := ⟨Syncer.new role (config role), store role, 0⟩
  openings _ _ := none
  outcomes := []

/-- A message arrives only if it is on its way, and a RECON_INIT only if there is room for a session. -/
def Allows (net : Network) : Move → Prop
  | .insert _ _ | .openSession _ _ => True
  | .deliver role msg => msg ∈ (net.parties role).inbox ∧ ∀ init, msg = .reconInit init →
      (net.parties role).syncer.openSessions < (net.parties role).syncer.config.maxSessions

variable [Sha256] [Ed25519]

def move (net : Network) : Move → Network
  | .insert role entry =>
    let party := net.parties role
    { net with
      parties := handOver net.parties role { party with store := (party.store.insert entry).2 } [] }
  | .openSession role window =>
    let party := net.parties role
    match party.syncer.openSession party.store window with
    | (.error _, syncer) =>
      { net with parties := handOver net.parties role { party with syncer } [] }
    | (.ok (sid, msg), syncer) =>
      { net with
        parties := handOver net.parties role { party with syncer } [msg]
        openings := remember net.openings role sid ⟨window, party.store, none⟩ }
  | .deliver role msg =>
    let party := net.parties role
    let (outcome, syncer, store) := party.syncer.handleMessage party.store msg
    { parties := handOver net.parties role ⟨syncer, store, party.inbox.erase msg⟩ (sentBy outcome)
      openings := meet net.openings role party.store msg
      outcomes := net.outcomes ++ [outcome] }

inductive Reaches (first : Network) : Network → Prop where
  | start : Reaches first first
  | move {net : Network} (reached : Reaches first net) (move : Move) (allowed : net.Allows move) :
      Reaches first (net.move move)

omit [Ed25519] in
/-- No id stands for two entries, and the fingerprints of a session tell the ranges of its two snapshots
apart. -/
structure CollisionFree (net : Network) : Prop where
  ids : ∀ role side id entry other, (net.parties role).store.get id = some entry →
    (net.parties side).store.get id = some other → entry = other
  fingerprints : ∀ opener sid opening met ours theirs, net.openings opener sid = some opening →
    opening.met = some met → opening.offered.snapshot opening.window = some ours →
    met.snapshot opening.window = some theirs → Sync.CollisionFree ours theirs

end Network

/-! ## One session, seen from both sides -/

def regarding (sid : UInt64) (inbox : Multiset Message) : Multiset Message :=
  inbox.filter fun msg => (kindOf sid msg).isSome = true

/-- The sessions that the opener and the other side hold, and the messages on their way to the other
side and to the opener. -/
structure Strand where
  ours : Option Session
  theirs : Option Session
  forth : Multiset Message
  back : Multiset Message

def strandOf (parties : Parties) (opener : LinkRole) (sid : UInt64) : Strand where
  ours := (parties opener).syncer.sessions.lookup (true, sid)
  theirs := (parties (otherRole opener)).syncer.sessions.lookup (false, sid)
  forth := regarding sid (parties (otherRole opener)).inbox
  back := regarding sid (parties opener).inbox

@[simp] theorem regarding_zero (sid : UInt64) : regarding sid 0 = 0 := rfl

@[simp] theorem regarding_add (sid : UInt64) (first second : Multiset Message) :
    regarding sid (first + second) = regarding sid first + regarding sid second :=
  Multiset.filter_add _ _ _

theorem regarding_cons_of_kind {sid : UInt64} {msg : Message} {kind : Kind}
    (about : kindOf sid msg = some kind) (inbox : Multiset Message) :
    regarding sid (msg ::ₘ inbox) = msg ::ₘ regarding sid inbox :=
  Multiset.filter_cons_of_pos _ (by rw [about]; rfl)

theorem regarding_cons_of_none {sid : UInt64} {msg : Message} (silent : kindOf sid msg = none)
    (inbox : Multiset Message) : regarding sid (msg ::ₘ inbox) = regarding sid inbox :=
  Multiset.filter_cons_of_neg _ (by rw [silent]; simp)

theorem regarding_eq_zero {sid : UInt64} {messages : List Message}
    (silent : ∀ msg ∈ messages, kindOf sid msg = none) :
    regarding sid (messages : Multiset Message) = 0 := by
  refine Multiset.filter_eq_nil.mpr fun msg mem => ?_
  rw [silent msg (Multiset.mem_coe.mp mem)]
  simp

section
variable (sid : UInt64) (window : SortKeyWindow) (msg : List UInt8)

theorem regarding_reconInit : regarding sid ([.reconInit ⟨sid, window, msg⟩] : List Message) =
    {.reconInit ⟨sid, window, msg⟩} :=
  regarding_cons_of_kind (show kindOf sid (.reconInit ⟨sid, window, msg⟩) = some .init from if_pos rfl) 0

theorem regarding_reconMsg : regarding sid ([.reconMsg ⟨sid, msg⟩] : List Message) =
    {.reconMsg ⟨sid, msg⟩} :=
  regarding_cons_of_kind (show kindOf sid (.reconMsg ⟨sid, msg⟩) = some .msg from if_pos rfl) 0

end

section Turn
variable (parties : Parties) (role : LinkRole) (party : Party) (sent : List Message)

@[simp] theorem handOver_self : handOver parties role party sent role = party := if_pos rfl

@[simp] theorem handOver_other : handOver parties role party sent (otherRole role) =
    { parties (otherRole role) with
      inbox := (parties (otherRole role)).inbox + (sent : Multiset Message) } :=
  if_neg (otherRole_ne role)

theorem strandOf_handOver_self (sid : UInt64) :
    strandOf (handOver parties role party sent) role sid =
      { ours := party.syncer.sessions.lookup (true, sid)
        theirs := (strandOf parties role sid).theirs
        forth := (strandOf parties role sid).forth + regarding sid (sent : Multiset Message)
        back := regarding sid party.inbox } := by
  simp only [strandOf, handOver_self, handOver_other, regarding_add]

theorem strandOf_handOver_other (sid : UInt64) :
    strandOf (handOver parties role party sent) (otherRole role) sid =
      { ours := (strandOf parties (otherRole role) sid).ours
        theirs := party.syncer.sessions.lookup (false, sid)
        forth := regarding sid party.inbox
        back := (strandOf parties (otherRole role) sid).back +
          regarding sid (sent : Multiset Message) } := by
  simp only [strandOf, handOver_self, handOver_other, otherRole_otherRole, regarding_add]

variable {parties role party sent}

theorem strandOf_handOver_same {sid : UInt64}
    (table : ∀ ours, party.syncer.sessions.lookup (ours, sid) =
      (parties role).syncer.sessions.lookup (ours, sid))
    (inbox : regarding sid party.inbox = regarding sid (parties role).inbox)
    (quiet : regarding sid (sent : Multiset Message) = 0) (opener : LinkRole) :
    strandOf (handOver parties role party sent) opener sid = strandOf parties opener sid := by
  rcases eq_or_eq_otherRole role opener with rfl | rfl
  · rw [strandOf_handOver_self, quiet, inbox, Multiset.add_zero]
    simp only [strandOf, table]
  · rw [strandOf_handOver_other, quiet, inbox, Multiset.add_zero]
    simp only [strandOf, table, otherRole_otherRole]

end Turn

end Racnet.Proof.Sessions
