import Racnet.Proof.Storage.Overflow
import Racnet.Proof.Storage.Running

/-!
# A full index

The index numbers its nodes with 32 bits and marks "no child" with the last number. The entry after
`2 ^ 32 - 1` others is given that number: `insert` keeps it and reports success, and no query finds it
any more.
-/

namespace Racnet.Proof.Storage
open Lib Store Wire

local instance : Sha256 := keyDigest

local instance : Ed25519 := trusting

theorem id_eq_sortKey (entry : Entry) : entry.id.bytes = leBytes 32 entry.sortKey.toNat := by
  have decoded := Entry.decode_toBytes entry []
  rw [List.append_nil] at decoded
  rw [Entry.id]
  dsimp only [Sha256.digest]
  rw [decoded]

theorem id_plainEntry (key : UInt64) : (plainEntry key).id.bytes = leBytes 32 key.toNat :=
  id_eq_sortKey (plainEntry key)

theorem id_plainEntry_injective {a b : UInt64} (same : (plainEntry a).id = (plainEntry b).id) :
    a = b := by
  have bytes := congrArg FixedBytes.bytes same
  rw [id_plainEntry, id_plainEntry] at bytes
  have small : ∀ key : UInt64, key.toNat < 256 ^ 32 := fun key =>
    lt_trans key.toNat_lt (by decide)
  rw [← UInt64.toNat_inj, ← ofLe_leBytes (small a), bytes, ofLe_leBytes (small b)]

def filledWith (key : Nat → UInt64) : Nat → EntryStore
  | 0 => EntryStore.new
  | n + 1 => ((filledWith key n).insert (plainEntry (key n))).2

theorem built_filledWith (key : Nat → UInt64) (n : Nat) : Built (filledWith key n) := by
  induction n with
  | zero => exact .new
  | succ n ih => exact ih.insert _

theorem storeOf_eq (n : Nat) : storeOf n = filledWith UInt64.ofNat n := by
  induction n with
  | zero => rfl
  | succ n ih => rw [storeOf, filledWith, ih]

/-- Up to `limit`, the keys differ from each other and from the reserved one. -/
structure Distinct (key : Nat → UInt64) (limit : Nat) : Prop where
  apart : ∀ i j, i < j → j ≤ limit → key i ≠ key j
  finite : ∀ i ≤ limit, key i ≠ reservedKey

/-- The first `n` entries, in memory. -/
structure HoldsFirst (key : Nat → UInt64) (store : EntryStore) (n : Nat) : Prop where
  memory : store.journal = none
  len : store.len = n
  ids : ∀ id, store.contains id = true → ∃ i < n, id = (plainEntry (key i)).id

section
variable {key : Nat → UInt64} {limit n : Nat} (distinct : Distinct key limit) {store : EntryStore}
include distinct

theorem HoldsFirst.absent {m : Nat} (first : HoldsFirst key store n) (le : n ≤ m)
    (small : m ≤ limit) : store.contains (plainEntry (key m)).id = false := by
  by_contra held
  obtain ⟨i, lt, same⟩ := first.ids _ (by simpa using held)
  exact distinct.apart i m (by omega) small (id_plainEntry_injective same).symm

theorem HoldsFirst.insert {t : LabelTree Item} (first : HoldsFirst key store n)
    (ordered : Ordered store t) (room : n ≤ nilIndex) (small : n ≤ limit) :
    ∃ order isNew, store.order.insert (itemOf (plainEntry (key n))) = some (order, isNew) ∧
      store.insert (plainEntry (key n)) = (.ok true,
        { entries := store.entries.insert (plainEntry (key n)).id (plainEntry (key n))
          order, journal := none }) :=
  insert_memory first.memory ordered.keeps (by rw [ordered.size, first.len]; exact room)
    (distinct.finite n small) rfl (first.absent distinct le_rfl small)

theorem HoldsFirst.next (first : HoldsFirst key store n) (small : n ≤ limit) (order : OrderIndex) :
    HoldsFirst key ⟨store.entries.insert (plainEntry (key n)).id (plainEntry (key n)), order, none⟩
      (n + 1) := by
  refine ⟨rfl, ?_, fun id held => ?_⟩
  · rw [len_insert (first.absent distinct le_rfl small), first.len]
  · rw [EntryStore.contains, decide_eq_true_eq, AList.mem_insert] at held
    rcases held with rfl | old
    · exact ⟨n, Nat.lt_succ_self n, rfl⟩
    · obtain ⟨i, lt, same⟩ := first.ids id (by simpa [EntryStore.contains] using old)
      exact ⟨i, Nat.lt_succ_of_lt lt, same⟩

theorem holdsFirst_filledWith (room : n ≤ nilIndex) (small : n ≤ limit) :
    HoldsFirst key (filledWith key n) n := by
  induction n with
  | zero => exact ⟨rfl, rfl, fun id held => absurd held (by simp [filledWith, EntryStore.new,
      EntryStore.contains])⟩
  | succ n ih =>
    have first := ih (by omega) (by omega)
    obtain ⟨t, ordered⟩ := (built_filledWith key n).filled.ordered (by rw [first.len]; omega)
    obtain ⟨order, isNew, -, inserted⟩ := first.insert distinct ordered (by omega) (by omega)
    rw [filledWith, inserted]
    exact first.next distinct (by omega) order

end

theorem distinct_ofNat : Distinct UInt64.ofNat nilIndex := by
  refine ⟨fun i j lt small same => ?_, fun i small same => ?_⟩
  · have keys := congrArg UInt64.toNat same
    rw [nilIndex] at small
    rw [UInt64.toNat_ofNat_of_lt' (by rw [UInt64.size]; omega),
      UInt64.toNat_ofNat_of_lt' (by rw [UInt64.size]; omega)] at keys
    omega
  · have keys := congrArg UInt64.toNat same
    rw [nilIndex] at small
    rw [reservedKey, UInt64.toNat_ofNat_of_lt' (by rw [UInt64.size]; omega),
      UInt64.toNat_ofNat_of_lt' (by rw [UInt64.size]; omega)] at keys
    omega

theorem holdsFirst_storeOf {n : Nat} (small : n ≤ nilIndex) :
    HoldsFirst UInt64.ofNat (storeOf n) n := by
  rw [storeOf_eq]
  exact holdsFirst_filledWith distinct_ofNat small small

def lostEntry : Entry := plainEntry (UInt64.ofNat nilIndex)

theorem insert_lostEntry : ∃ store t, (storeOf nilIndex).insert lostEntry = (.ok true, store) ∧
    Built store ∧ store.journal = none ∧ store.len = nilIndex + 1 ∧
    store.get lostEntry.id = some lostEntry ∧ Keeps store.order t ∧ itemOf lostEntry ∉ t.toList ∧
    ∀ x ∈ t.toList, Holds (storeOf nilIndex) x := by
  have first := @holdsFirst_storeOf nilIndex le_rfl
  obtain ⟨t, ordered⟩ := (built_storeOf nilIndex).filled.ordered (by rw [first.len])
  obtain ⟨order, isNew, indexed, inserted⟩ := first.insert distinct_ofNat ordered le_rfl le_rfl
  have absent : itemOf lostEntry ∉ t.toList := fun mem =>
    not_holds_of_absent (first.absent distinct_ofNat le_rfl le_rfl) ((ordered.items _).mp mem)
  obtain ⟨order', t', ran, keeps, same⟩ :=
    ordered.keeps.insert_full (by rw [ordered.size, first.len]) absent
  obtain ⟨rfl, -⟩ : order = order' ∧ isNew = true :=
    Prod.mk.inj (Option.some.inj (indexed.symm.trans ran))
  have built := (built_storeOf nilIndex).insert lostEntry
  rw [show (storeOf nilIndex).insert lostEntry = _ from inserted] at built
  refine ⟨_, t', inserted, built, rfl, ?_, get_insert_self _ _ _ _ _, keeps, same ▸ absent,
    fun x mem => (ordered.items x).mp (same ▸ mem)⟩
  rw [len_insert (first.absent distinct_ofNat le_rfl le_rfl), first.len]

/-- A store that holds an entry and leaves it out of the window of all sort keys. -/
theorem full_store_loses_entry : ∃ (_ : Sha256) (_ : Ed25519) (store : EntryStore) (entry : Entry)
    (items : List Item), Built store ∧ store.len = 2 ^ 32 ∧ store.get entry.id = some entry ∧
      store.snapshot ⟨0, UInt64.ofNat (2 ^ 64 - 1)⟩ = some items ∧ itemOf entry ∉ items := by
  obtain ⟨store, t, -, built, -, size, held, keeps, absent, -⟩ := insert_lostEntry
  exact ⟨keyDigest, trusting, store, lostEntry, _, built, size, held, snapshot_eq keeps _,
    fun mem => absent (mem_between.mp mem).1⟩

def lostWindow : SortKeyWindow := ⟨4294967295, 4294967296⟩

theorem sortKey_storeOf {x : Item} (holds : Holds (storeOf nilIndex) x) : x.sortKey.toNat < nilIndex := by
  obtain ⟨entry, held, key⟩ := holds
  have first := @holdsFirst_storeOf nilIndex le_rfl
  have contained : (storeOf nilIndex).contains x.id = true := by
    rw [EntryStore.contains, decide_eq_true_eq, ← AList.lookup_isSome]
    exact Option.isSome_of_mem held
  obtain ⟨i, small, same⟩ := first.ids x.id contained
  have own := (built_storeOf nilIndex).filled.sound.keyed x.id entry held
  have bytes := congrArg FixedBytes.bytes (own.trans same)
  rw [id_eq_sortKey, id_plainEntry] at bytes
  have bounded : ∀ key : UInt64, key.toNat < 256 ^ 32 := fun key => lt_trans key.toNat_lt (by decide)
  have keys : entry.sortKey.toNat = (UInt64.ofNat i).toNat := by
    rw [← ofLe_leBytes (bounded entry.sortKey), bytes, ofLe_leBytes (bounded _)]
  rw [← key, keys, UInt64.toNat_ofNat_of_lt' (by rw [UInt64.size]; rw [nilIndex] at small; omega)]
  exact small

theorem lost_window : ∃ store, Built store ∧ store.journal = none ∧
    store.get lostEntry.id = some lostEntry ∧ store.snapshot lostWindow = some [] := by
  obtain ⟨store, t, -, built, journal, -, held, keeps, -, old⟩ := insert_lostEntry
  refine ⟨store, built, journal, held, (snapshot_eq keeps _).trans (congrArg some ?_)⟩
  refine List.eq_nil_iff_forall_not_mem.mpr fun x mem => ?_
  obtain ⟨listed, inside⟩ := mem_between.mp mem
  have above := ((inWindow_iff lostWindow x).mp inside).1
  exact absurd (sortKey_storeOf (old x listed)) (Nat.not_lt.mpr above)

/-! ## Past the limit -/

/-- Sort keys that go to the two sides of the first one in turn. -/
def zigzag (n : Nat) : UInt64 :=
  UInt64.ofNat (if n % 2 = 1 then 2 ^ 32 + (n + 1) / 2 else 2 ^ 32 - n / 2)

theorem toNat_zigzag {n : Nat} (small : n ≤ 2 ^ 32) :
    (zigzag n).toNat = if n % 2 = 1 then 2 ^ 32 + (n + 1) / 2 else 2 ^ 32 - n / 2 := by
  refine UInt64.toNat_ofNat_of_lt' ?_
  rw [UInt64.size]
  split_ifs <;> omega

theorem distinct_zigzag : Distinct zigzag (2 ^ 32) := by
  refine ⟨fun i j lt small same => ?_, fun i small same => ?_⟩
  · have keys := congrArg UInt64.toNat same
    rw [toNat_zigzag (by omega), toNat_zigzag small] at keys
    split_ifs at keys <;> omega
  · have keys := congrArg UInt64.toNat same
    rw [toNat_zigzag small, reservedKey,
      UInt64.toNat_ofNat_of_lt' (by rw [UInt64.size]; omega)] at keys
    split_ifs at keys <;> omega

def middle : Item := itemOf (plainEntry (zigzag 0))

theorem zigzag_lt {n : Nat} (small : n ≤ 2 ^ 32) (even : n % 2 = 0) (pos : 0 < n) :
    itemOf (plainEntry (zigzag n)) < middle := by
  refine (Item.lt_iff _ _).mpr (Or.inl ?_)
  change (zigzag n).toNat < (zigzag 0).toNat
  rw [toNat_zigzag small, toNat_zigzag (by omega), if_neg (by omega), if_neg (by omega)]
  omega

theorem lt_zigzag {n : Nat} (small : n ≤ 2 ^ 32) (odd : n % 2 = 1) :
    middle < itemOf (plainEntry (zigzag n)) := by
  refine (Item.lt_iff _ _).mpr (Or.inl ?_)
  change (zigzag 0).toNat < (zigzag n).toNat
  rw [toNat_zigzag small, toNat_zigzag (by omega), if_pos odd, if_neg (by omega)]
  omega

/-- The first `n` entries with node `0` in the middle of their order. -/
structure Zigzag (store : EntryStore) (n : Nat) (l r : LabelTree Item) : Prop where
  first : HoldsFirst zigzag store n
  ordered : Ordered store (.node 0 l middle r)
  rooted : Rooted store.order middle ((n - 1) / 2) (n / 2) l r

theorem Zigzag.absent {store : EntryStore} {n m : Nat} {l r : LabelTree Item} (even : Zigzag store n l r)
    (le : n ≤ m) (small : m ≤ 2 ^ 32) :
    itemOf (plainEntry (zigzag m)) ∉ (LabelTree.node 0 l middle r).toList := fun mem =>
  not_holds_of_absent (even.first.absent distinct_zigzag le small) ((even.ordered.items _).mp mem)

theorem Zigzag.insert {store : EntryStore} {n : Nat} {l r : LabelTree Item} (even : Zigzag store n l r)
    (pos : 0 < n) (room : n ≤ nilIndex) :
    ∃ order l' r' fresh, store.order.insert (itemOf (plainEntry (zigzag n))) = some (order, true) ∧
      store.insert (plainEntry (zigzag n)) = (.ok true,
        { entries := store.entries.insert (plainEntry (zigzag n)).id (plainEntry (zigzag n))
          order, journal := none }) ∧
      order.nodes.length = n + 1 ∧ fresh = (if n = nilIndex then 0 else 1) ∧
      Rooted order middle ((n - 1) / 2 + (if n % 2 = 0 then fresh else 0))
        (n / 2 + (if n % 2 = 0 then 0 else fresh)) l' r' := by
  have small : n ≤ 2 ^ 32 := le_trans room (by rw [nilIndex]; omega)
  have absent := even.absent le_rfl small
  simp only [LabelTree.toList, List.mem_append, List.mem_cons, not_or] at absent
  have length : store.order.nodes.length = n := by rw [even.ordered.size, even.first.len]
  have fresh : (freshTree n (itemOf (plainEntry (zigzag n)))).size =
      if n = nilIndex then 0 else 1 := by
    rw [freshTree]
    split_ifs <;> rfl
  obtain ⟨order, isNew, indexed, inserted⟩ := even.first.insert distinct_zigzag even.ordered room small
  rcases Nat.mod_two_eq_zero_or_one n with parity | parity
  · obtain ⟨order', l', ran, rooted, size⟩ := even.rooted.insert_left (by rw [length]; exact room)
      (zigzag_lt small parity pos) absent.1 (by omega)
    obtain ⟨rfl, -⟩ := Prod.mk.inj (Option.some.inj (indexed.symm.trans ran))
    rw [length, fresh] at rooted
    refine ⟨order, l', r, _, ran, inserted, by rw [size, length], rfl, ?_⟩
    rwa [if_pos parity, if_pos parity, Nat.add_zero]
  · obtain ⟨order', r', ran, rooted, size⟩ := even.rooted.insert_right (by rw [length]; exact room)
      (lt_zigzag small parity) absent.2.2 (by omega)
    obtain ⟨rfl, -⟩ := Prod.mk.inj (Option.some.inj (indexed.symm.trans ran))
    rw [length, fresh] at rooted
    refine ⟨order, l, r', _, ran, inserted, by rw [size, length], rfl, ?_⟩
    rwa [if_neg (by omega), if_neg (by omega), Nat.add_zero]

theorem zigzag_one : ∃ l r, Zigzag (filledWith zigzag 1) 1 l r := by
  have empty := @holdsFirst_filledWith _ _ 0 distinct_zigzag (Nat.zero_le _) (Nat.zero_le _)
  have first := @holdsFirst_filledWith _ _ 1 distinct_zigzag (by decide) (by decide)
  obtain ⟨t₀, ordered₀⟩ := (built_filledWith zigzag 0).filled.ordered (Nat.zero_le _)
  obtain ⟨t, ordered⟩ := (built_filledWith zigzag 1).filled.ordered (by rw [first.len]; decide)
  obtain ⟨order, isNew, indexed, inserted⟩ :=
    empty.insert distinct_zigzag ordered₀ (Nat.zero_le _) (Nat.zero_le _)
  obtain ⟨order', ran, keeps, -⟩ := @Keeps.insert_tree .leaf OrderIndex.new middle _ keeps_new
    (Nat.zero_le _) rfl
  obtain ⟨rfl, -⟩ := Prod.mk.inj (Option.some.inj (indexed.symm.trans ran))
  have after : (filledWith zigzag 1).order = order := by
    rw [filledWith, inserted]
  have single : freshTree OrderIndex.new.nodes.length middle = .node 0 .leaf middle .leaf :=
    if_neg (by decide)
  rw [single] at keeps
  have shape := (after ▸ keeps.nodes).unique ordered.keeps.nodes
    ((after ▸ keeps.root).symm.trans ordered.keeps.root)
  rw [← shape] at ordered
  exact ⟨.leaf, .leaf, first, ordered, ordered.keeps, rfl, rfl⟩

theorem zigzag_filledWith {n : Nat} (pos : 0 < n) (room : n ≤ nilIndex) :
    ∃ l r, Zigzag (filledWith zigzag n) n l r := by
  induction n, pos using Nat.le_induction with
  | base => exact zigzag_one
  | succ n pos ih =>
    obtain ⟨l, r, even⟩ := ih (by omega)
    obtain ⟨order, l', r', fresh, -, inserted, -, unit, rooted⟩ := even.insert pos (by omega)
    have small : n ≤ 2 ^ 32 := by
      rw [nilIndex] at room
      omega
    have first := even.first.next distinct_zigzag small order
    obtain ⟨t, ordered⟩ := (built_filledWith zigzag (n + 1)).filled.ordered
      (by rw [filledWith, inserted, first.len]; exact room)
    rw [filledWith, inserted] at ordered ⊢
    rw [if_neg (by omega)] at unit
    subst unit
    have shape := rooted.keeps.nodes.unique ordered.keeps.nodes
      (rooted.keeps.root.symm.trans ordered.keeps.root)
    rw [← shape] at ordered
    refine ⟨l', r', first, ordered, ?_⟩
    have sizes : (n - 1) / 2 + (if n % 2 = 0 then 1 else 0) = (n + 1 - 1) / 2 ∧
        n / 2 + (if n % 2 = 0 then 0 else 1) = (n + 1) / 2 := by
      split_ifs <;> omega
    rwa [sizes.1, sizes.2] at rooted

theorem insert_past_limit :
    ∃ store entry, Built store ∧ Running store ∧ (store.insert entry).1 = .error .panic := by
  obtain ⟨l, r, even⟩ := @zigzag_filledWith nilIndex (by decide) le_rfl
  obtain ⟨order, l', r', fresh, ran, inserted, length, unit, rooted⟩ :=
    even.insert (by decide) le_rfl
  have first := even.first.next distinct_zigzag (by decide) order
  rw [if_pos rfl] at unit
  subst unit
  -- the order is the one without the lost entry
  obtain ⟨order', t, ran', keeps, same⟩ := even.ordered.keeps.insert_full
    (by rw [even.ordered.size, even.first.len]) (even.absent le_rfl (by decide))
  obtain ⟨rfl, -⟩ := Prod.mk.inj (Option.some.inj (ran.symm.trans ran'))
  obtain rfl := rooted.keeps.nodes.unique keeps.nodes
    (rooted.keeps.root.symm.trans keeps.root)
  have absent := @Zigzag.absent _ _ (2 ^ 32) _ _ even (by decide) le_rfl
  rw [← same] at absent
  have overflow := rooted.insert_overflow (by rw [length]; rfl) (by decide) (by decide) absent
  have built := (built_filledWith zigzag nilIndex).insert (plainEntry (zigzag nilIndex))
  rw [inserted] at built
  refine ⟨_, plainEntry (zigzag (2 ^ 32)), built, fun _ none => absurd none (by simp), ?_⟩
  exact insert_memory_panic rfl overflow (distinct_zigzag.finite _ le_rfl) rfl
    (first.absent distinct_zigzag (by decide) le_rfl)

end Racnet.Proof.Storage
