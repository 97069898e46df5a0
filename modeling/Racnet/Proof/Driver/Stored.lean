import Racnet.Proof.Driver.Calls
import Racnet.Proof.Sessions.Table

/-!
# Entries that a link stores
-/

namespace Racnet.Proof.Driver
open Lib Noise Store Sync Wire Link
open Proof.Storage (insert_step)
open Proof.Sessions (handleInit_step handleReconMsg_step handleDone_step)

def storedIds (events : List LinkEvent) : List EntryId :=
  events.filterMap fun
    | .sync (.stored id) => some id
    | _ => none

@[simp] theorem storedIds_append (first second : List LinkEvent) :
    storedIds (first ++ second) = storedIds first ++ storedIds second := List.filterMap_append

theorem storedIds_closed (reason : CloseReason) : storedIds [.closed reason] = [] := rfl

def Quiet : SyncEvent → Prop
  | .stored _ => False
  | _ => True

theorem storedIds_quiet {events : List SyncEvent} (quiet : ∀ event ∈ events, Quiet event) :
    storedIds (events.map .sync) = [] := by
  rw [storedIds, List.filterMap_map, List.filterMap_eq_nil_iff]
  intro event mem
  cases event with
  | stored id => exact (quiet _ mem).elim
  | duplicateIgnored | reconciled | sessionClosed => rfl

section

theorem finish_quiet {store : EntryStore} {out : Exec SyncError SyncOutput × Syncer}
    (quiet : ∀ output, out.1 = .ok output → ∀ event ∈ output.events, Quiet event) :
    (Syncer.finish store {} out).store = store ∧
      storedIds ((Syncer.finish store {} out).output.events.map .sync) = [] := by
  rcases out with ⟨trap | output, syncer⟩
  · exact ⟨rfl, rfl⟩
  · exact ⟨rfl, storedIds_quiet (quiet output rfl)⟩

theorem reportRound_quiet (syncer : Syncer) (store : EntryStore) (sid : UInt64)
    (haveIds needIds : List EntryId) :
    ∀ event ∈ (syncer.reportRound store sid haveIds needIds).events, Quiet event := by
  intro event mem
  rw [Syncer.reportRound] at mem
  split_ifs at mem
  · rw [List.mem_singleton.mp mem]
    trivial
  · exact absurd mem (by simp)

variable [Sha256] [Ed25519]

/-- The store has grown by entries that verify, the last one first. -/
structure Grows (store store' : EntryStore) (added : List Entry) : Prop where
  entries : store'.entries.entries =
    (added.map fun entry => (⟨entry.id, entry⟩ : Sigma fun _ : EntryId => Entry)).reverse ++
      store.entries.entries
  verified : ∀ entry ∈ added, entry.verify = .ok ()

theorem Grows.refl (store : EntryStore) : Grows store store [] :=
  ⟨rfl, fun _ mem => absurd mem (by simp)⟩

theorem Grows.trans {store store₁ store₂ : EntryStore} {first second : List Entry}
    (grown : Grows store store₁ first) (more : Grows store₁ store₂ second) :
    Grows store store₂ (first ++ second) := by
  refine ⟨?_, fun entry mem => ?_⟩
  · rw [more.entries, grown.entries, List.map_append, List.reverse_append, List.append_assoc]
  · rcases List.mem_append.mp mem with old | new
    · exact grown.verified entry old
    · exact more.verified entry new

theorem insert_grows (store : EntryStore) (entry : Entry) :
    ((store.insert entry).1 = .ok true ∧ Grows store (store.insert entry).2 [entry]) ∨
    ((store.insert entry).1 ≠ .ok true ∧ Grows store (store.insert entry).2 []) := by
  have step := insert_step store entry
  generalize (store.insert entry).1 = result at step ⊢
  generalize (store.insert entry).2 = after at step ⊢
  cases step with
  | refused trap journal => exact Or.inr ⟨by simp, rfl, fun _ mem => absurd mem (by simp)⟩
  | duplicate held => exact Or.inr ⟨by simp, .refl store⟩
  | added finite verified absent journal order isNew indexed =>
    refine Or.inl ⟨rfl, ?_, fun other mem => List.mem_singleton.mp mem ▸ verified⟩
    have missing : entry.id ∉ store.entries := by
      simpa [EntryStore.contains] using absent
    exact congrArg AList.entries (AList.insert_of_notMem missing)

theorem handlePush_grows (store : EntryStore) (entries : List Entry) (events : List SyncEvent) :
    ∃ added, Grows store (Syncer.handlePush store entries events).2.1 added ∧
      storedIds ((Syncer.handlePush store entries events).2.2.map .sync) =
        storedIds (events.map .sync) ++ added.map Entry.id := by
  induction entries generalizing store events with
  | nil => exact ⟨[], .refl store, by simp [Syncer.handlePush]⟩
  | cons entry entries ih =>
    have grows := insert_grows store entry
    rw [Syncer.handlePush]
    rcases inserted : store.insert entry with ⟨trap | isNew, after⟩
    · rw [inserted] at grows
      have grown : Grows store after [] := by
        rcases grows with ⟨stored, -⟩ | ⟨-, grown⟩
        · cases stored
        · exact grown
      refine ⟨[], ?_, ?_⟩
      · rcases trap with ⟨⟨⟩⟩ | _ <;> exact grown
      · rcases trap with ⟨⟨⟩⟩ | _ <;> simp
    · rw [inserted] at grows
      cases isNew with
      | true =>
        have grown : Grows store after [entry] := by
          rcases grows with ⟨-, grown⟩ | ⟨refused, -⟩
          · exact grown
          · exact absurd rfl refused
        obtain ⟨added, more, reported⟩ := ih after (events ++ [.stored entry.id])
        refine ⟨entry :: added, grown.trans more, ?_⟩
        rw [reported, List.map_append, storedIds_append, List.append_assoc]
        rfl
      | false =>
        have grown : Grows store after [] := by
          rcases grows with ⟨stored, -⟩ | ⟨-, grown⟩
          · cases stored
          · exact grown
        obtain ⟨added, more, reported⟩ := ih after (events ++ [.duplicateIgnored entry.id])
        refine ⟨added, grown.trans more, ?_⟩
        rw [reported, List.map_append, storedIds_append]
        exact congrArg (· ++ _) (List.append_nil _)

theorem handleMessageInto_grows (syncer : Syncer) (store : EntryStore) (msg : Message) :
    ∃ added, Grows store (syncer.handleMessageInto store msg {}).store added ∧
      storedIds ((syncer.handleMessageInto store msg {}).output.events.map .sync) =
        added.map Entry.id := by
  have still : ∀ out : Exec SyncError SyncOutput × Syncer,
      (∀ output, out.1 = .ok output → ∀ event ∈ output.events, Quiet event) →
      syncer.handleMessageInto store msg {} = Syncer.finish store {} out →
      ∃ added, Grows store (syncer.handleMessageInto store msg {}).store added ∧
        storedIds ((syncer.handleMessageInto store msg {}).output.events.map .sync) =
          added.map Entry.id := by
    intro out quiet ran
    obtain ⟨same, none⟩ := @finish_quiet store out quiet
    refine ⟨[], ?_, ?_⟩
    · rw [ran, same]
      exact .refl store
    · rw [ran, none]
      rfl
  cases msg with
  | gossipPush push =>
    obtain ⟨added, grown, reported⟩ := handlePush_grows store push.entries []
    exact ⟨added, grown, reported⟩
  | reconInit init =>
    refine still (syncer.handleInit store init) (fun output ran => ?_) rfl
    have step := handleInit_step syncer store init
    generalize syncer.handleInit store init = out at step ran
    cases step with
    | refused trap => cases ran
    | accepted engine round reply parity absent room made answered replied =>
      obtain rfl := Except.ok.inj ran
      exact fun event mem => absurd mem (by simp)
  | reconMsg rm =>
    refine still (syncer.handleReconMsg store rm) (fun output ran => ?_) rfl
    have step := handleReconMsg_step syncer store rm
    generalize syncer.handleReconMsg store rm = out at step ran
    cases step with
    | refused trap => cases ran
    | continued session round reply found answered replied =>
      obtain rfl := Except.ok.inj ran
      exact reportRound_quiet syncer store rm.sid _ _
    | finished session round found answered replied =>
      obtain rfl := Except.ok.inj ran
      intro event mem
      rcases List.mem_append.mp mem with reported | last
      · exact reportRound_quiet syncer store rm.sid _ _ event reported
      · rw [List.mem_singleton.mp last]
        trivial
  | reconDone done =>
    refine still (syncer.handleDone done) (fun output ran => ?_) rfl
    have step := handleDone_step syncer done
    generalize syncer.handleDone done = out at step ran
    cases step with
    | refused absent => cases ran
    | closed found =>
      obtain rfl := Except.ok.inj ran
      intro event mem
      rw [List.mem_singleton.mp mem]
      trivial
  | hello _ | handshake _ | error _ => exact ⟨[], .refl store, rfl⟩

end

/-! ## Calls of `on_bytes` -/

section
variable [Sha256] [HmacSha256] [X25519] [ChaCha20Poly1305] [Ed25519]
  {driver after : LinkDriver} {store store' : EntryStore} {effect : Effect}

theorem BodyStep.grows {body : List UInt8}
    (step : BodyStep driver store body after store' effect) :
    ∃ added, Grows store store' added ∧ storedIds effect.events = added.map Entry.id := by
  have still : storedIds effect.events = [] → store' = store →
      ∃ added, Grows store store' added ∧ storedIds effect.events = added.map Entry.id := by
    rintro none rfl
    exact ⟨[], .refl store', none⟩
  cases step with
  | hello waiting step => cases step <;> exact still rfl rfl
  | handshake hs waiting step => cases step <;> exact still rfl rfl
  | transport transport established step =>
    cases step with
    | dropped | peerError | violated => exact still rfl rfl
    | handled plaintext after last msg handled frames decrypted decoded sync ran accepted encrypted =>
      rw [← ran]
      exact handleMessageInto_grows _ _ _
    | exhausted plaintext after msg handled decrypted decoded sync ran accepted failed =>
      rw [← ran, storedIds_append, storedIds_closed, List.append_nil]
      exact handleMessageInto_grows _ _ _
    | refused plaintext after msg handled err decrypted decoded sync ran rejected =>
      rw [← ran, storedIds_append, storedIds_closed, List.append_nil]
      exact handleMessageInto_grows _ _ _

theorem Bodies.grows (bodies : Bodies driver store after store' effect) :
    ∃ added, Grows store store' added ∧ storedIds effect.events = added.map Entry.id := by
  induction bodies with
  | waiting incomplete => exact ⟨[], .refl _, rfl⟩
  | closed next step ended => exact step.grows
  | more next step open_ rest ih =>
    obtain ⟨added, grown, reported⟩ := step.grows
    obtain ⟨later, more, reported'⟩ := ih
    refine ⟨added ++ later, grown.trans more, ?_⟩
    rw [Effect.andThen, storedIds_append, reported, reported', List.map_append]

theorem BytesStep.grows {bytes : List UInt8} {nowUs : UInt64}
    (step : BytesStep driver store bytes nowUs after store' effect) :
    ∃ added, Grows store store' added ∧ storedIds effect.events = added.map Entry.id := by
  cases step with
  | inert ended => exact ⟨[], .refl store, rfl⟩
  | expired reason open_ late => exact ⟨[], .refl store, rfl⟩
  | read open_ inTime bodies => exact bodies.grows

/-! ## The store after a call -/

omit [HmacSha256] [X25519] [ChaCha20Poly1305] in
theorem Grows.get {added : List Entry} (grown : Grows store store' added) :
    (added.map Entry.id).Nodup ∧
      (∀ entry ∈ added, store.get entry.id = none ∧ store'.get entry.id = some entry) ∧
      ∀ id, id ∉ added.map Entry.id → store'.get id = store.get id := by
  have distinct := store'.entries.nodupKeys
  have keys : store'.entries.entries.keys = (added.map Entry.id).reverse ++
      store.entries.entries.keys := by
    rw [grown.entries, List.keys, List.map_append, List.map_reverse, List.map_map]
    rfl
  rw [List.NodupKeys, keys, List.nodup_append] at distinct
  obtain ⟨nodup, -, apart⟩ := distinct
  have found : ∀ entry ∈ added, store'.get entry.id = some entry := by
    intro entry mem
    rw [EntryStore.get, ← Option.mem_def, AList.mem_lookup_iff, grown.entries]
    exact List.mem_append_left _ (List.mem_reverse.mpr (List.mem_map_of_mem mem))
  refine ⟨List.nodup_reverse.mp nodup, fun entry mem => ⟨?_, found entry mem⟩, fun id absent => ?_⟩
  · rw [EntryStore.get, AList.lookup_eq_none]
    intro held
    have reported : entry.id ∈ (added.map Entry.id).reverse :=
      List.mem_reverse.mpr (List.mem_map_of_mem mem)
    exact apart _ reported _ (AList.mem_keys.mp held) rfl
  · refine Option.ext fun entry => ?_
    rw [EntryStore.get, EntryStore.get, ← Option.mem_def, ← Option.mem_def, AList.mem_lookup_iff,
      AList.mem_lookup_iff, grown.entries, List.mem_append, List.mem_reverse, List.mem_map]
    refine or_iff_right fun ⟨other, mem, same⟩ => absent ?_
    rw [← (Sigma.mk.inj same).1]
    exact List.mem_map_of_mem mem

/-- What a call adds to the store is what it reports as stored. -/
theorem stored_reported {bytes : List UInt8} {nowUs : UInt64} {out : LinkOutput}
    (ran : driver.onBytes store bytes nowUs = some (after, store', out)) :
    ∃ added : List Entry,
      storedIds out.events = added.map Entry.id ∧ (added.map Entry.id).Nodup ∧
      store'.entries.entries =
        (added.map fun entry => (⟨entry.id, entry⟩ : Sigma fun _ : EntryId => Entry)).reverse ++
          store.entries.entries ∧
      (∀ entry ∈ added, entry.verify = .ok () ∧ store.get entry.id = none ∧
        store'.get entry.id = some entry) ∧
      (∀ id, id ∉ added.map Entry.id → store'.get id = store.get id) ∧
      ∀ (i j : Nat) (id : EntryId) (reason : CloseReason), out.events[i]? = some (.sync (.stored id)) →
        out.events[j]? = some (.closed reason) → i < j := by
  obtain ⟨effect, step, rfl⟩ := onBytes_step ran
  have events : (effect.on {}).events = effect.events := List.nil_append _
  obtain ⟨added, grown, reported⟩ : ∃ added, Grows store store' added ∧
      storedIds effect.events = added.map Entry.id := by
    cases step with
    | inert ended => exact ⟨[], .refl store, rfl⟩
    | expired reason open_ late => exact ⟨[], .refl store, rfl⟩
    | read open_ inTime bodies => exact bodies.grows
  obtain ⟨nodup, gained, kept⟩ := grown.get
  refine ⟨added, by rw [events, reported], nodup, grown.entries,
    fun entry mem => ⟨grown.verified entry mem, gained entry mem⟩, kept, ?_⟩
  intro i j id reason stored ended
  rw [events] at stored ended
  have last := closed_last step.follows ended
  obtain ⟨inside, -⟩ := List.getElem?_eq_some_iff.mp stored
  have apart : i ≠ j := by
    rintro rfl
    rw [stored] at ended
    cases ended
  omega

end

/-! ## A call -/

section
open StandIns

/-- A push of five entries: one that is held already, and one whose sort key is reserved. -/
def brokenPush : Message :=
  .gossipPush ⟨[Storage.plainEntry 5, Storage.plainEntry 1, Storage.plainEntry 7,
    Storage.plainEntry (UInt64.ofNat (2 ^ 64 - 1)), Storage.plainEntry 9], 1⟩

theorem brokenPush_events : (handshaken.bind fun talk =>
    talk.responder.onBytes (Storage.storeOf 3) (messageBytes talk.initiator brokenPush) 0).map
      (fun ran => (storedIds ran.2.2.events, ran.2.2.events.getLast?)) =
    some ([(Storage.plainEntry 5).id, (Storage.plainEntry 7).id], some (.closed (.protocolViolation 1))) := by
  decide +kernel

/-- An established link stores two entries of a push before it fails over the reserved sort key. -/
theorem stored_reported_push : ∃ (talk : Handshaken) (after : LinkDriver) (store' : EntryStore) (out : LinkOutput)
    (added : List Entry), handshaken = some talk ∧
    talk.responder.onBytes (Storage.storeOf 3) (messageBytes talk.initiator brokenPush) 0 =
      some (after, store', out) ∧
    added.map Entry.id = [(Storage.plainEntry 5).id, (Storage.plainEntry 7).id] ∧
    store'.entries.entries =
      (added.map fun entry => (⟨entry.id, entry⟩ : Sigma fun _ : EntryId => Entry)).reverse ++
        (Storage.storeOf 3).entries.entries ∧
    out.events.getLast? = some (.closed (.protocolViolation 1)) := by
  obtain ⟨⟨after, store', out⟩, ran, events⟩ := Option.map_eq_some_iff.mp brokenPush_events
  obtain ⟨talk, talked, ran⟩ := Option.bind_eq_some_iff.mp ran
  obtain ⟨stored, last⟩ := Prod.mk.inj events
  obtain ⟨added, reported, -, held, -⟩ := stored_reported ran
  exact ⟨talk, after, store', out, added, talked, ran, reported.symm.trans stored, held, last⟩

end

end Racnet.Proof.Driver
