import Racnet.Proof.Storage.Coherence

/-!
# Window queries

A window is answered with the slice of the order between two ranks, which holds the items between the
two sort keys.
-/

namespace Racnet.Proof.Storage
open Lib Store Wire

variable {store : EntryStore} {t : LabelTree Item}

def InWindow (window : SortKeyWindow) (sortKey : UInt64) : Prop :=
  window.since.toNat ≤ sortKey.toNat ∧ sortKey.toNat < window.until_.toNat

def windowStart (window : SortKeyWindow) : Item := ⟨window.since, FixedBytes.zero 32⟩

def windowEnd (window : SortKeyWindow) : Item := ⟨window.until_, FixedBytes.zero 32⟩

theorem start_le_iff (key : UInt64) (x : Item) :
    (⟨key, FixedBytes.zero 32⟩ : Item) ≤ x ↔ key.toNat ≤ x.sortKey.toNat := by
  rw [Item.le_iff]
  constructor
  · rintro (lt | ⟨same, -⟩)
    · exact lt.le
    · exact same.le
  · intro le
    rcases Nat.lt_or_eq_of_le le with lt | same
    · exact Or.inl lt
    · exact Or.inr ⟨same, FixedBytes.zero_le x.id⟩

theorem inWindow_iff (window : SortKeyWindow) (x : Item) :
    windowStart window ≤ x ∧ x < windowEnd window ↔ InWindow window x.sortKey := by
  rw [windowStart, windowEnd, InWindow, start_le_iff, ← not_le, start_le_iff, not_le]

theorem snapshot_eq (keeps : Keeps store.order t) (window : SortKeyWindow) :
    store.snapshot window = some (between (windowStart window) (windowEnd window) t.toList) := by
  simp only [EntryStore.snapshot, keeps.lowerBound, keeps.collectRange,
    Option.bind_eq_bind, Option.bind_some]
  rw [slice_of_le (le_max_right _ _) (max_le (rank_le_length _ _) (rank_le_length _ _))]
  change some (((t.toList.take (max (rank t.toList (windowEnd window))
    (rank t.toList (windowStart window)))).drop (rank t.toList (windowStart window)))) = _
  rcases le_total (windowStart window) (windowEnd window) with upright | inverted
  · rw [max_eq_left (rank_mono _ upright)]
    exact congrArg some (slice_rank keeps.sorted _ _)
  · -- `hi.max(lo)` makes the slice of an inverted window empty
    rw [max_eq_right (rank_mono _ inverted), between_eq_nil_of_le inverted, List.drop_eq_nil_of_le]
    rw [List.length_take]
    exact min_le_left _ _

theorem Ordered.mem_snapshot (ordered : Ordered store t) {window : SortKeyWindow}
    {items : List Item} (taken : store.snapshot window = some items) (x : Item) :
    x ∈ items ↔ Holds store x ∧ InWindow window x.sortKey := by
  rw [snapshot_eq ordered.keeps] at taken
  obtain rfl := Option.some.inj taken
  rw [mem_between, ordered.items, inWindow_iff]

theorem Ordered.sorted_snapshot (ordered : Ordered store t) {window : SortKeyWindow}
    {items : List Item} (taken : store.snapshot window = some items) :
    items.Pairwise (· < ·) := by
  rw [snapshot_eq ordered.keeps] at taken
  obtain rfl := Option.some.inj taken
  exact ordered.keeps.sorted.filter _

theorem toNat_lt_reserved {key : UInt64} (finite : key ≠ reservedKey) : key.toNat < 2 ^ 64 - 1 := by
  have bound := key.toNat_lt
  have ne : key.toNat ≠ 2 ^ 64 - 1 := by
    intro last
    exact finite (UInt64.toNat_inj.mp (by rw [last]; rfl))
  omega

section
variable [Sha256] [Ed25519]

omit [Ed25519] in
theorem exists_entries {items : List Item} (keyed : ∀ id entry, store.get id = some entry →
    entry.id = id) (held : ∀ x ∈ items, Holds store x) :
    ∃ entries, (items.filterMap fun item => store.get item.id) = entries ∧
      entries.map itemOf = items := by
  induction items with
  | nil => exact ⟨[], rfl, rfl⟩
  | cons x xs ih =>
    obtain ⟨entries, found, back⟩ := ih fun y mem => held y (List.mem_cons_of_mem x mem)
    obtain ⟨entry, here, key⟩ := held x List.mem_cons_self
    refine ⟨entry :: entries, ?_, ?_⟩
    · rw [List.filterMap_cons, here, found]
    · have same : itemOf entry = x := Item.ext key (keyed x.id entry here)
      rw [List.map_cons, back, same]

theorem insert_unchanged {entry : Entry} (refused : (store.insert entry).1 ≠ .ok true) :
    (store.insert entry).2.entries = store.entries ∧ (store.insert entry).2.order = store.order := by
  have step := insert_step store entry
  generalize (store.insert entry).1 = result at step refused
  generalize (store.insert entry).2 = after at step
  cases step with
  | refused trap journal => exact ⟨rfl, rfl⟩
  | duplicate held => exact ⟨rfl, rfl⟩
  | added finite verified absent journal order isNew indexed => exact absurd rfl refused

/-- A store and its order agree, and every window is answered with the entries in it. -/
theorem store_coherent (built : Built store) (room : store.len ≤ nilIndex) :
    (∃ items, store.order.len = some items.length ∧
      store.order.collectRange 0 items.length = some items ∧ items.Nodup ∧
      ∀ x, x ∈ items ↔ Holds store x) ∧
    (∀ id entry, store.get id = some entry →
      entry.id = id ∧ entry.verify = .ok () ∧ entry.sortKey.toNat < 2 ^ 64 - 1) ∧
    (∀ entry, (store.insert entry).1 ≠ .ok true →
      (store.insert entry).2.entries = store.entries ∧
      (store.insert entry).2.order = store.order) ∧
    ∀ window : Api.SyncWindow, ∃ entries : List Entry,
      store.snapshot window.into = some (entries.map itemOf) ∧
      Api.entriesInWindow store window = some (entries.map Api.entryView) ∧
      (entries.map itemOf).Pairwise (· < ·) ∧
      (window.untilMs.toNat < window.sinceMs.toNat → entries = []) ∧
      ∀ entry, entry ∈ entries ↔ store.get entry.id = some entry ∧
        window.sinceMs.toNat ≤ entry.sortKey.toNat ∧
        (entry.sortKey.toNat < window.untilMs.toNat ∨ window.untilMs.toNat = 2 ^ 64 - 1) := by
  have sound := built.filled.sound
  obtain ⟨t, ordered⟩ := built.filled.ordered room
  refine ⟨⟨t.toList, ordered.keeps.len, ?_, ?_, ordered.items⟩, fun id entry held => ?_,
    fun entry refused => insert_unchanged refused, fun window => ?_⟩
  · rw [ordered.keeps.collectRange, slice_of_le (Nat.zero_le _) le_rfl, List.take_length,
      List.drop_zero]
  · exact ordered.keeps.sorted.imp ne_of_lt
  · exact ⟨sound.keyed id entry held, sound.verified id entry held,
      toNat_lt_reserved (sound.finite id entry held)⟩
  obtain ⟨items, taken⟩ : ∃ items, store.snapshot window.into = some items :=
    ⟨_, snapshot_eq ordered.keeps window.into⟩
  have members := ordered.mem_snapshot taken
  obtain ⟨entries, found, rfl⟩ :=
    exists_entries sound.keyed fun x mem => ((members x).mp mem).1
  have listed : ∀ entry, entry ∈ entries ↔ store.get entry.id = some entry ∧
      InWindow window.into entry.sortKey := by
    intro entry
    constructor
    · intro mem
      obtain ⟨⟨other, held, _⟩, inside⟩ := (members _).mp (List.mem_map_of_mem mem)
      rw [← found] at mem
      obtain ⟨x, _, here⟩ := List.mem_filterMap.mp mem
      exact ⟨(sound.keyed x.id entry here).symm ▸ here, inside⟩
    · rintro ⟨held, inside⟩
      rw [← found]
      exact List.mem_filterMap.mpr ⟨itemOf entry, (members _).mpr ⟨⟨entry, held, rfl⟩, inside⟩, held⟩
  refine ⟨entries, taken, ?_, ordered.sorted_snapshot taken, fun inverted => ?_, fun entry => ?_⟩
  · rw [Api.entriesInWindow, taken, Option.bind_eq_bind, Option.bind_some, found]
    rfl
  · rw [List.eq_nil_iff_forall_not_mem]
    intro entry mem
    obtain ⟨-, above, below⟩ := (listed entry).mp mem
    exact absurd (lt_of_le_of_lt above below) (not_lt.mpr inverted.le)
  · rw [listed, InWindow]
    refine and_congr_right fun held => and_congr_right fun _ => ⟨Or.inl, ?_⟩
    rintro (below | last)
    · exact below
    · exact lt_of_lt_of_eq (toNat_lt_reserved (sound.finite _ entry held)) last.symm

end

/-! ## A store of plain entries -/

/-- A digest that tells entries apart by their sort key. -/
@[reducible] def keyDigest : Sha256 where
  digest bytes :=
    match Entry.decode bytes with
    | some (entry, _) => ⟨leBytes 32 entry.sortKey.toNat, length_leBytes _ _⟩
    | none => FixedBytes.zero 32

@[reducible] def trusting : Ed25519 := ⟨fun _ => true, fun _ _ _ => true⟩

def plainEntry (key : UInt64) : Entry where
  author := FixedBytes.zero 32
  sortKey := key
  kind := 0
  payload := ⟨[], Vec.length_nil_lt⟩
  sig := FixedBytes.zero 64

local instance : Sha256 := keyDigest

local instance : Ed25519 := trusting

def storeOf : Nat → EntryStore
  | 0 => EntryStore.new
  | n + 1 => ((storeOf n).insert (plainEntry (UInt64.ofNat n))).2

theorem built_storeOf (n : Nat) : Built (storeOf n) := by
  induction n with
  | zero => exact .new
  | succ n ih => exact ih.insert _

theorem store_coherent_windows : (storeOf 6).len ≤ nilIndex ∧ ∃ low high : List Entry,
    (storeOf 6).snapshot ⟨1, 3⟩ = some (low.map itemOf) ∧
    (storeOf 6).snapshot ⟨3, UInt64.ofNat (2 ^ 64 - 1)⟩ = some (high.map itemOf) ∧
    ∀ k < 6, (plainEntry (UInt64.ofNat k) ∈ low ↔ k = 1 ∨ k = 2) ∧
      (plainEntry (UInt64.ofNat k) ∈ high ↔ 3 ≤ k) := by
  obtain ⟨-, -, -, windows⟩ := store_coherent (built_storeOf 6) (by decide +kernel)
  obtain ⟨low, taken, -, -, -, members⟩ := windows ⟨1, 3⟩
  obtain ⟨high, taken', -, -, -, members'⟩ := windows ⟨3, UInt64.ofNat (2 ^ 64 - 1)⟩
  refine ⟨by decide +kernel, low, high, taken, taken', ?_⟩
  simp only [members, members']
  decide +kernel

end Racnet.Proof.Storage
