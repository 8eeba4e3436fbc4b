import SpendabilityPir.Nullifier.TableRoundTrip

/-!
# Taking blocks out of the table

A removal keeps the records of some heights.  Their entries stay in their slots, the
slots of the other records are cleared, and no other slot changes.  Removals compose,
and what they leave is determined by the heights they keep, so it does not matter in
which order blocks are taken out, nor whether by rollback or by eviction.
-/

namespace SpendabilityPir
namespace Nullifier

open Foundation

namespace HashTableDb

/-!
## The invariant of owned slots
-/

theorem RepInvariant.hashIndexed {db : HashTableDb} (h : RepInvariant db) :
    HashIndexed db.blockHashToHeight db.blockIndex :=
  h.inverse

theorem length_slots_le_slotRefs {index : OrderedMap Nat BlockRecord} {height : Nat}
    {record : BlockRecord} (h : index.find? height = some record) :
    record.slots.length ≤ (slotRefs index).length := by
  rw [(slotRefs_perm_erase h).length_eq, List.length_append]
  exact Nat.le_add_right _ _

theorem repInvariant_of_owned {db : HashTableDb}
    (howned : Owned db.buckets (slotRefs db.blockIndex))
    (howner : forall height record, db.blockIndex.find? height = some record ->
      forall slot, slot ∈ record.slots ->
        (hashToBucket (entryAt db.buckets slot).nullifier).val = slot.1 ∧
        (entryAt db.buckets slot).spendHeight.toNat = height % 2 ^ 32)
    (hcount : db.numEntries = (slotRefs db.blockIndex).length)
    (hindexed : HashIndexed db.blockHashToHeight db.blockIndex) : RepInvariant db := by
  constructor
  · exact howned.nodup
  · intro slot hslot
    exact howned.inRange hslot
  · intro b i
    rw [howned.occupied, entryAt_val]
  · exact howner
  · exact hcount
  · intro height record hrecord
    rw [hcount]
    exact length_slots_le_slotRefs hrecord
  · exact hindexed

/-!
## Keeping the records of some heights
-/

/-- The second table is the first without the records of the heights not kept. -/
structure Keeps (db : HashTableDb) (keep : Nat -> Bool) (db' : HashTableDb) : Prop where
  index : db'.blockIndex = db.blockIndex.filterKeys keep
  invariant : RepInvariant db'
  frame : forall slot, slot ∈ slotRefs db'.blockIndex ->
    entryAt db'.buckets slot = entryAt db.buckets slot
  cleared : forall slot, slot ∈ slotRefs db.blockIndex ->
    slot ∉ slotRefs db'.blockIndex -> entryAt db'.buckets slot = NullifierEntry.zero
  untouched : forall slot, slot ∉ slotRefs db.blockIndex ->
    entryAt db'.buckets slot = entryAt db.buckets slot

theorem mem_slotRefs_of_filterKeys {index : OrderedMap Nat BlockRecord}
    {keep : Nat -> Bool} {slot : Nat × Nat} (h : slot ∈ slotRefs (index.filterKeys keep)) :
    slot ∈ slotRefs index := by
  rcases mem_slotRefs.mp h with ⟨height, record, hfind, hslot⟩
  have hkept := (OrderedMap.find?_filterKeys_eq_some_iff.mp hfind).left
  exact mem_slotRefs.mpr ⟨height, record, hkept, hslot⟩

theorem Keeps.mem_slotRefs {db db' : HashTableDb} {keep : Nat -> Bool}
    (h : Keeps db keep db') {slot : Nat × Nat} (hslot : slot ∈ slotRefs db'.blockIndex) :
    slot ∈ slotRefs db.blockIndex := by
  rw [h.index] at hslot
  exact mem_slotRefs_of_filterKeys hslot

theorem Keeps.find?_iff {db db' : HashTableDb} {keep : Nat -> Bool}
    (h : Keeps db keep db') (height : Nat) (record : BlockRecord) :
    db'.blockIndex.find? height = some record ↔
      db.blockIndex.find? height = some record ∧ keep height = true := by
  rw [h.index]
  exact OrderedMap.find?_filterKeys_eq_some_iff

theorem RepInvariant.keeps_self {db : HashTableDb} (h : RepInvariant db)
    {keep : Nat -> Bool}
    (hall : forall height record, db.blockIndex.find? height = some record ->
      keep height = true) : Keeps db keep db := by
  constructor
  · exact (OrderedMap.filterKeys_of_forall hall).symm
  · exact h
  · intro slot _
    rfl
  · intro slot hslot hnot
    exact absurd hslot hnot
  · intro slot _
    rfl

theorem Keeps.trans {db mid db' : HashTableDb} {p q : Nat -> Bool}
    (h : Keeps db p mid) (h' : Keeps mid q db') :
    Keeps db (fun height => p height && q height) db' := by
  constructor
  · rw [h'.index, h.index, OrderedMap.filterKeys_filterKeys]
  · exact h'.invariant
  · intro slot hslot
    rw [h'.frame slot hslot, h.frame slot (h'.mem_slotRefs hslot)]
  · intro slot hslot hnot
    by_cases hmid : slot ∈ slotRefs mid.blockIndex
    · exact h'.cleared slot hmid hnot
    · rw [h'.untouched slot hmid, h.cleared slot hslot hmid]
  · intro slot hnot
    have hmid : slot ∉ slotRefs mid.blockIndex := fun hslot => hnot (h.mem_slotRefs hslot)
    rw [h'.untouched slot hmid, h.untouched slot hnot]

theorem Keeps.congr {db db' : HashTableDb} {p q : Nat -> Bool} (h : Keeps db p db')
    (hsame : forall height record, db.blockIndex.find? height = some record ->
      q height = p height) : Keeps db q db' := by
  refine ⟨?_, h.invariant, h.frame, h.cleared, h.untouched⟩
  rw [h.index]
  apply OrderedMap.ext
  apply List.filter_congr
  rintro ⟨height, record⟩ hmem
  exact (hsame height record (OrderedMap.mem_entries_iff.mp hmem)).symm

theorem entries_eq_of_entryAt {buckets buckets' : Fin numBuckets -> Bucket}
    (h : forall slot, entryAt buckets' slot = entryAt buckets slot) (b : Fin numBuckets) :
    (buckets' b).entries = (buckets b).entries := by
  funext i
  have hslot := h (b.val, i.val)
  rwa [entryAt_val, entryAt_val] at hslot

theorem Keeps.unique {db left right : HashTableDb} {keep : Nat -> Bool}
    (h : Keeps db keep left) (h' : Keeps db keep right) : SameContents left right := by
  have hindex : right.blockIndex = left.blockIndex := h'.index.trans h.index.symm
  constructor
  · apply entries_eq_of_entryAt
    intro slot
    by_cases hslot : slot ∈ slotRefs db.blockIndex
    · by_cases hkept : slot ∈ slotRefs left.blockIndex
      · rw [h'.frame slot (hindex ▸ hkept), h.frame slot hkept]
      · rw [h'.cleared slot hslot (hindex ▸ hkept), h.cleared slot hslot hkept]
    · rw [h'.untouched slot hslot, h.untouched slot hslot]
  · exact hindex
  · have hright := h'.invariant.hashIndexed
    rw [hindex] at hright
    exact hright.unique h.invariant.hashIndexed
  · rw [h'.invariant.count, h.invariant.count, hindex]

/-- The hash index drops the heights that are not kept. -/
theorem Keeps.blockHashToHeight_iff {db db' : HashTableDb} {keep : Nat -> Bool}
    (hinv : RepInvariant db) (h : Keeps db keep db') (blockHash : ByteVec 32)
    (height : Nat) :
    db'.blockHashToHeight blockHash = some height ↔
      db.blockHashToHeight blockHash = some height ∧ keep height = true := by
  rw [h.invariant.inverse, hinv.inverse]
  constructor
  · rintro ⟨record, hfind, hhash⟩
    rcases (h.find?_iff height record).mp hfind with ⟨hbefore, hkept⟩
    exact ⟨⟨record, hbefore, hhash⟩, hkept⟩
  · rintro ⟨⟨record, hfind, hhash⟩, hkept⟩
    exact ⟨record, (h.find?_iff height record).mpr ⟨hfind, hkept⟩, hhash⟩

theorem Keeps.entryAt_kept {db db' : HashTableDb} {keep : Nat -> Bool}
    (h : Keeps db keep db') {height : Nat} {record : BlockRecord}
    (hfind : db.blockIndex.find? height = some record) (hkept : keep height = true)
    {slot : Nat × Nat} (hslot : slot ∈ record.slots) :
    entryAt db'.buckets slot = entryAt db.buckets slot := by
  apply h.frame
  exact HashTableDb.mem_slotRefs.mpr
    ⟨height, record, (h.find?_iff height record).mpr ⟨hfind, hkept⟩, hslot⟩

theorem RepInvariant.height_eq_of_mem {db : HashTableDb} (h : RepInvariant db)
    {height height' : Nat} {record record' : BlockRecord} {slot : Nat × Nat}
    (hfind : db.blockIndex.find? height = some record) (hslot : slot ∈ record.slots)
    (hfind' : db.blockIndex.find? height' = some record') (hslot' : slot ∈ record'.slots) :
    height' = height := by
  by_contra hne
  have howned := h.owned.perm (slotRefs_perm_erase hfind)
  apply howned.disjoint _ hslot
  apply HashTableDb.mem_slotRefs.mpr
  refine ⟨height', record', ?_, hslot'⟩
  rw [OrderedMap.find?_erase, if_neg hne]
  exact hfind'

theorem Keeps.entryAt_removed {db db' : HashTableDb} {keep : Nat -> Bool}
    (hinv : RepInvariant db) (h : Keeps db keep db') {height : Nat} {record : BlockRecord}
    (hfind : db.blockIndex.find? height = some record) (hgone : keep height = false)
    {slot : Nat × Nat} (hslot : slot ∈ record.slots) :
    entryAt db'.buckets slot = NullifierEntry.zero := by
  apply h.cleared
  · exact HashTableDb.mem_slotRefs.mpr ⟨height, record, hfind, hslot⟩
  · intro hlisted
    rcases HashTableDb.mem_slotRefs.mp hlisted with ⟨other, record', hother, hslot'⟩
    rcases (h.find?_iff other record').mp hother with ⟨hbefore, hkept⟩
    have hsame := hinv.height_eq_of_mem hfind hslot hbefore hslot'
    rw [hsame, hgone] at hkept
    cases hkept

/-!
## Removing one record
-/

theorem removeSlots_of_removeRecord {db db' : HashTableDb} {record : BlockRecord}
    (h : removeRecord db record = some db') :
    removeSlots db.buckets record.slots = some db'.buckets := by
  unfold HashTableDb.removeRecord at h
  split at h
  · cases h
  · next buckets hbuckets =>
      split at h
      · cases h
        exact hbuckets
      · cases h

theorem RepInvariant.removeRecord {db : HashTableDb} (h : RepInvariant db) {height : Nat}
    {record : BlockRecord} (hrecord : db.blockIndex.find? height = some record) :
    exists db',
      ((db.forgetHash record.blockHash).forgetHeight height).removeRecord record =
        some db' ∧
      Keeps db (fun k => decide (k ≠ height)) db' := by
  have hperm := slotRefs_perm_erase hrecord
  rcases h.owned.removeRecord h.count hrecord with
    ⟨buckets, hremove, howned, hcount, hframe⟩
  have hslots : removeSlots db.buckets record.slots = some buckets :=
    removeSlots_of_removeRecord hremove
  refine ⟨_, hremove, ⟨OrderedMap.erase_eq_filterKeys _ _, ?_, hframe, ?_, ?_⟩⟩
  · apply repInvariant_of_owned howned
    · intro k other hother slot hslot
      have hlisted := mem_slotRefs.mpr ⟨k, other, hother, hslot⟩
      simp only [OrderedMap.find?_erase] at hother
      split at hother
      · cases hother
      · rw [hframe slot hlisted]
        exact h.owner k other hother slot hslot
    · change db.numEntries - record.slots.length = _
      lia
    · exact h.hashIndexed.erase hrecord
  · intro slot hlisted hgone
    rcases List.mem_append.mp (hperm.mem_iff.mp hlisted) with hremoved | hkept
    · rw [entryAt_removeSlots hslots slot, if_pos hremoved]
    · exact absurd hkept hgone
  · intro slot hnot
    have hother : slot ∉ record.slots :=
      fun hin => hnot (hperm.mem_iff.mpr (List.mem_append_left _ hin))
    rw [entryAt_removeSlots hslots slot, if_neg hother]

theorem RepInvariant.rollbackBlock {db : HashTableDb} (h : RepInvariant db)
    {blockHash : ByteVec 32} {height : Nat}
    (hlive : db.blockHashToHeight blockHash = some height) :
    exists db', db.rollbackBlock blockHash = some (db', .ok ()) ∧
      Keeps db (fun k => decide (k ≠ height)) db' := by
  rcases (h.inverse blockHash height).mp hlive with ⟨record, hrecord, hhash⟩
  rcases h.removeRecord hrecord with ⟨db', hremove, hkeeps⟩
  rw [hhash] at hremove
  refine ⟨db', ?_, hkeeps⟩
  rw [HashTableDb.rollbackBlock, hlive]
  simp only [hrecord, hremove]

theorem RepInvariant.evictOldestBlock {db : HashTableDb} (h : RepInvariant db)
    {first : Nat × BlockRecord} (hfirst : db.blockIndex.first? = some first) :
    exists db', db.evictOldestBlock = some (db', some first.1) ∧
      Keeps db (fun k => decide (k ≠ first.1)) db' := by
  rcases h.removeRecord (OrderedMap.find?_of_first? hfirst) with ⟨db', hremove, hkeeps⟩
  have hcomm : (db.forgetHeight first.1).forgetHash first.2.blockHash =
      (db.forgetHash first.2.blockHash).forgetHeight first.1 := rfl
  refine ⟨db', ?_, hkeeps⟩
  rw [HashTableDb.evictOldestBlock, hfirst]
  simp only [hcomm, hremove]

theorem repInvariant_oneBlock :
    RepInvariant (new.insertBlock 7 (ByteVec.zeros 32) [oneNullifier]).1 := by
  have hinsert : new.insertBlock 7 (ByteVec.zeros 32) [oneNullifier] =
      ((new.insertBlock 7 (ByteVec.zeros 32) [oneNullifier]).1, .ok ()) := rfl
  have hnonzero : forall nwm, nwm ∈ [oneNullifier] ->
      nwm.nullifier ≠ ByteVec.zeros 32 := by decide
  exact repInvariant_of_represents
    (represents_insertBlock represents_new (by decide) rfl rfl hnonzero hinsert)

end HashTableDb
end Nullifier
end SpendabilityPir
