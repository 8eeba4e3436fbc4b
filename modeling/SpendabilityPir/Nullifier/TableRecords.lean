import Mathlib.Data.List.Forall2
import SpendabilityPir.Nullifier.HashTable

/-!
# Block records of the table

Each block record lists the slots that hold its entries.  The listed slots own the
occupied part of the table: they are pairwise distinct and nothing else is occupied.
Writing an entry adds a slot to the owned ones and clearing slots gives them back.
The hash index points from each recorded block hash to the height of its record.
-/

namespace SpendabilityPir
namespace Nullifier

open Foundation

namespace HashTableDb

/-- A slot in a nullifier's bucket that holds the nullifier's entry. -/
def HoldsEntry (buckets : Fin numBuckets -> Bucket) (spendHeight : UInt32)
    (slot : Nat × Nat) (nwm : NullifierWithMeta) : Prop :=
  slot.1 = (hashToBucket nwm.nullifier).val ∧
    entryAt buckets slot = entryOf spendHeight nwm

/-!
## Slot references
-/

def slotRefs (index : OrderedMap Nat BlockRecord) : List (Nat × Nat) :=
  index.entries.flatMap (fun e => e.2.slots)

theorem mem_slotRefs {index : OrderedMap Nat BlockRecord} {slot : Nat × Nat} :
    slot ∈ slotRefs index ↔
      exists height record, index.find? height = some record ∧ slot ∈ record.slots := by
  unfold slotRefs
  rw [List.mem_flatMap]
  constructor
  · rintro ⟨⟨height, record⟩, hmem, hslot⟩
    exact ⟨height, record, OrderedMap.mem_entries_iff.mp hmem, hslot⟩
  · rintro ⟨height, record, hfind, hslot⟩
    exact ⟨(height, record), OrderedMap.mem_entries_iff.mpr hfind, hslot⟩

theorem slotRefs_insert_perm {index : OrderedMap Nat BlockRecord} {height : Nat}
    (record : BlockRecord) (h : index.find? height = none) :
    (slotRefs (index.insert height record)).Perm (slotRefs index ++ record.slots) := by
  have hperm := (OrderedMap.entries_insert_perm record h).flatMap_right
    (fun e => e.2.slots)
  rw [List.flatMap_cons] at hperm
  exact hperm.trans List.perm_append_comm

theorem slotRefs_perm_erase {index : OrderedMap Nat BlockRecord} {height : Nat}
    {record : BlockRecord} (h : index.find? height = some record) :
    (slotRefs index).Perm (record.slots ++ slotRefs (index.erase height)) := by
  have hperm := (OrderedMap.entries_perm_erase h).flatMap_right (fun e => e.2.slots)
  rw [List.flatMap_cons] at hperm
  exact hperm

/-!
## Slot ownership
-/

/-- The listed slots are distinct and are exactly the occupied slots. -/
structure Owned (buckets : Fin numBuckets -> Bucket) (slots : List (Nat × Nat)) :
    Prop where
  nodup : slots.Nodup
  occupied : forall slot, slot ∈ slots ↔ (entryAt buckets slot).isEmpty = false

theorem Owned.perm {buckets : Fin numBuckets -> Bucket}
    {slots slots' : List (Nat × Nat)} (h : Owned buckets slots)
    (hperm : slots.Perm slots') : Owned buckets slots' :=
  { nodup := hperm.nodup_iff.mp h.nodup
    occupied := fun slot => hperm.mem_iff.symm.trans (h.occupied slot) }

theorem Owned.not_mem {buckets : Fin numBuckets -> Bucket} {slots : List (Nat × Nat)}
    (h : Owned buckets slots) {slot : Nat × Nat}
    (hempty : (entryAt buckets slot).isEmpty = true) : slot ∉ slots := by
  intro hmem
  rw [(h.occupied slot).mp hmem] at hempty
  cases hempty

theorem Owned.inRange {buckets : Fin numBuckets -> Bucket} {slots : List (Nat × Nat)}
    (h : Owned buckets slots) {slot : Nat × Nat} (hslot : slot ∈ slots) :
    slot.1 < numBuckets ∧ slot.2 < bucketCapacity :=
  inRange_of_entryAt_nonempty ((h.occupied slot).mp hslot)

theorem Owned.putEntry {db : HashTableDb} {slots : List (Nat × Nat)}
    (h : Owned db.buckets slots) {b : Fin numBuckets} {i : Fin bucketCapacity}
    {entry : NullifierEntry} (hfree : (b.val, i.val) ∉ slots)
    (hfilled : entry.isEmpty = false) :
    Owned (db.putEntry b i entry).buckets (slots ++ [(b.val, i.val)]) := by
  constructor
  · refine List.nodup_append.mpr ⟨h.nodup, List.nodup_singleton _, ?_⟩
    intro slot hslot other hother heq
    rw [List.mem_singleton.mp hother] at heq
    exact hfree (heq ▸ hslot)
  · intro slot
    rw [entryAt_putEntry, List.mem_append, List.mem_singleton]
    by_cases hslot : slot = (b.val, i.val)
    · rw [if_pos hslot]
      simp [hslot, hfilled]
    · rw [if_neg hslot]
      simp [hslot, h.occupied slot]

theorem Owned.disjoint {buckets : Fin numBuckets -> Bucket}
    {removed kept : List (Nat × Nat)} (h : Owned buckets (removed ++ kept))
    {slot : Nat × Nat} (hkept : slot ∈ kept) : slot ∉ removed := by
  intro hremoved
  have hcross := (List.nodup_append.mp h.nodup).right.right
  exact hcross slot hremoved slot hkept rfl

theorem Owned.removeSlots_isSome {buckets : Fin numBuckets -> Bucket}
    {removed kept : List (Nat × Nat)} (h : Owned buckets (removed ++ kept)) :
    exists buckets', removeSlots buckets removed = some buckets' := by
  apply HashTableDb.removeSlots_isSome
  intro slot hslot
  exact h.inRange (List.mem_append_left kept hslot)

theorem Owned.removeSlots {buckets buckets' : Fin numBuckets -> Bucket}
    {removed kept : List (Nat × Nat)} (h : Owned buckets (removed ++ kept))
    (hremove : HashTableDb.removeSlots buckets removed = some buckets') :
    Owned buckets' kept := by
  constructor
  · exact (List.nodup_append.mp h.nodup).right.left
  · intro slot
    rw [entryAt_removeSlots hremove slot]
    by_cases hslot : slot ∈ removed
    · rw [if_pos hslot, NullifierEntry.isEmpty_zero]
      constructor
      · intro hkept
        exact absurd hslot (h.disjoint hkept)
      · intro hfalse
        cases hfalse
    · rw [if_neg hslot, ← h.occupied slot, List.mem_append]
      simp [hslot]

/-- A listed record can be removed from a table whose listed slots are owned and counted;
the slots of the others stay owned and counted. -/
theorem Owned.removeRecord {db : HashTableDb} {height : Nat} {record : BlockRecord}
    (h : Owned db.buckets (slotRefs db.blockIndex))
    (hcount : db.numEntries = (slotRefs db.blockIndex).length)
    (hrecord : db.blockIndex.find? height = some record) :
    exists buckets,
      ((db.forgetHash record.blockHash).forgetHeight height).removeRecord record =
        some { buckets := buckets
               blockIndex := db.blockIndex.erase height
               blockHashToHeight :=
                 Function.update db.blockHashToHeight record.blockHash none
               numEntries := db.numEntries - record.slots.length } ∧
      Owned buckets (slotRefs (db.blockIndex.erase height)) ∧
      db.numEntries =
        record.slots.length + (slotRefs (db.blockIndex.erase height)).length ∧
      forall slot, slot ∈ slotRefs (db.blockIndex.erase height) ->
        entryAt buckets slot = entryAt db.buckets slot := by
  have hperm := slotRefs_perm_erase hrecord
  have howned := h.perm hperm
  have hsplit : db.numEntries =
      record.slots.length + (slotRefs (db.blockIndex.erase height)).length := by
    rw [hcount, hperm.length_eq, List.length_append]
  rcases howned.removeSlots_isSome with ⟨buckets, hbuckets⟩
  refine ⟨buckets, ?_, howned.removeSlots hbuckets, hsplit, ?_⟩
  · have hbuckets' : HashTableDb.removeSlots
        ((db.forgetHash record.blockHash).forgetHeight height).buckets record.slots =
          some buckets := hbuckets
    have hle : record.slots.length ≤
        ((db.forgetHash record.blockHash).forgetHeight height).numEntries := by
      show record.slots.length ≤ db.numEntries
      lia
    rw [HashTableDb.removeRecord, hbuckets']
    exact if_pos hle
  · intro slot hslot
    rw [entryAt_removeSlots hbuckets slot, if_neg (howned.disjoint hslot)]

theorem insertNullifiers_ok {spendHeight : UInt32}
    {nullifiers : List NullifierWithMeta} {db db' : HashTableDb}
    {slots slots' owned : List (Nat × Nat)} (howned : Owned db.buckets owned)
    (hnonzero : forall nwm, nwm ∈ nullifiers -> nwm.nullifier ≠ ByteVec.zeros 32)
    (h : insertNullifiers spendHeight db slots nullifiers = (db', .ok slots')) :
    exists new,
      slots' = slots ++ new ∧
      List.Forall₂ (HoldsEntry db'.buckets spendHeight) new nullifiers ∧
      Owned db'.buckets (owned ++ new) ∧
      (forall slot, slot ∈ owned ->
        entryAt db'.buckets slot = entryAt db.buckets slot) ∧
      db'.numEntries = db.numEntries + nullifiers.length ∧
      db'.blockIndex = db.blockIndex ∧
      db'.blockHashToHeight = db.blockHashToHeight := by
  induction nullifiers generalizing db slots owned with
  | nil =>
      cases h
      refine ⟨[], ?_, List.Forall₂.nil, ?_, fun _ _ => rfl, rfl, rfl, rfl⟩
      · rw [List.append_nil]
      · rw [List.append_nil]
        exact howned
  | cons nwm rest ih =>
      unfold insertNullifiers at h
      cases hfree : (db.buckets (hashToBucket nwm.nullifier)).findFreeSlot with
      | none =>
          simp only [hfree] at h
          cases h
      | some i =>
          simp only [hfree] at h
          let slot : Nat × Nat := ((hashToBucket nwm.nullifier).val, i.val)
          have hempty : (entryAt db.buckets slot).isEmpty = true := by
            rw [entryAt_val]
            exact findFreeSlot_isEmpty hfree
          have hnotOwned : slot ∉ owned := howned.not_mem hempty
          have hput := entryAt_putEntry db (hashToBucket nwm.nullifier) i
            (entryOf spendHeight nwm)
          have hfilled : (entryOf spendHeight nwm).isEmpty = false :=
            decide_eq_false (hnonzero nwm List.mem_cons_self)
          have hownedMid := howned.putEntry hnotOwned hfilled
          have hrest := fun n hn => hnonzero n (List.mem_cons_of_mem nwm hn)
          rcases ih hownedMid hrest h with
            ⟨new, hslots, hholds, hownedNew, hframe, hcount, hindex, hhash⟩
          refine ⟨slot :: new, ?_, ?_, ?_, ?_, ?_, hindex, hhash⟩
          · rw [hslots, List.append_assoc]
            rfl
          · apply List.Forall₂.cons _ hholds
            have hkept := hframe slot
              (List.mem_append_right _ (List.mem_singleton.mpr rfl))
            refine ⟨rfl, ?_⟩
            rw [hkept, hput slot, if_pos rfl]
          · rwa [List.append_assoc] at hownedNew
          · intro s hs
            have hne : s ≠ slot := fun heq => hnotOwned (heq ▸ hs)
            rw [hframe s (List.mem_append_left _ hs), hput s, if_neg hne]
          · rw [hcount, List.length_cons]
            show db.numEntries + 1 + rest.length = db.numEntries + (rest.length + 1)
            lia

/-!
## The hash index
-/

/-- The hash index holds exactly the hashes of the records, each at its height. -/
def HashIndexed (hashes : ByteVec 32 -> Option Nat)
    (index : OrderedMap Nat BlockRecord) : Prop :=
  forall blockHash height, hashes blockHash = some height ↔
    exists record, index.find? height = some record ∧ record.blockHash = blockHash

theorem HashIndexed.height_unique {hashes : ByteVec 32 -> Option Nat}
    {index : OrderedMap Nat BlockRecord} (h : HashIndexed hashes index)
    {height height' : Nat} {record record' : BlockRecord}
    (hrecord : index.find? height = some record)
    (hrecord' : index.find? height' = some record')
    (hsame : record'.blockHash = record.blockHash) : height' = height := by
  have hat := (h record.blockHash height).mpr ⟨record, hrecord, rfl⟩
  have hat' := (h record.blockHash height').mpr ⟨record', hrecord', hsame⟩
  exact Option.some.inj (hat'.symm.trans hat)

theorem HashIndexed.unique {hashes hashes' : ByteVec 32 -> Option Nat}
    {index : OrderedMap Nat BlockRecord} (h : HashIndexed hashes index)
    (h' : HashIndexed hashes' index) : hashes = hashes' := by
  funext blockHash
  apply Option.ext
  intro height
  exact (h blockHash height).trans (h' blockHash height).symm

theorem HashIndexed.insert {hashes : ByteVec 32 -> Option Nat}
    {index : OrderedMap Nat BlockRecord} (h : HashIndexed hashes index)
    {height : Nat} (record : BlockRecord)
    (hfreshHeight : index.find? height = none)
    (hfreshHash : hashes record.blockHash = none) :
    HashIndexed (Function.update hashes record.blockHash (some height))
      (index.insert height record) := by
  intro blockHash k
  rw [OrderedMap.find?_insert]
  by_cases hhash : blockHash = record.blockHash
  · rw [hhash, Function.update_self]
    constructor
    · intro heq
      cases heq
      exact ⟨record, if_pos rfl, rfl⟩
    · rintro ⟨other, hother, hsame⟩
      by_cases hk : k = height
      · rw [hk]
      · rw [if_neg hk] at hother
        have hat := (h record.blockHash k).mpr ⟨other, hother, hsame⟩
        rw [hfreshHash] at hat
        cases hat
  · rw [Function.update_of_ne hhash, h blockHash k]
    constructor
    · rintro ⟨other, hother, hsame⟩
      have hk : k ≠ height := by
        intro hk
        rw [hk, hfreshHeight] at hother
        cases hother
      exact ⟨other, by rw [if_neg hk, hother], hsame⟩
    · rintro ⟨other, hother, hsame⟩
      by_cases hk : k = height
      · rw [if_pos hk] at hother
        cases hother
        exact absurd hsame.symm hhash
      · rw [if_neg hk] at hother
        exact ⟨other, hother, hsame⟩

theorem HashIndexed.erase {hashes : ByteVec 32 -> Option Nat}
    {index : OrderedMap Nat BlockRecord} (h : HashIndexed hashes index)
    {height : Nat} {record : BlockRecord}
    (hrecord : index.find? height = some record) :
    HashIndexed (Function.update hashes record.blockHash none)
      (index.erase height) := by
  intro blockHash k
  rw [OrderedMap.find?_erase]
  by_cases hhash : blockHash = record.blockHash
  · rw [hhash, Function.update_self]
    constructor
    · intro hfalse
      cases hfalse
    · rintro ⟨other, hother, hsame⟩
      by_cases hk : k = height
      · rw [if_pos hk] at hother
        cases hother
      · rw [if_neg hk] at hother
        exact absurd (h.height_unique hrecord hother hsame) hk
  · rw [Function.update_of_ne hhash, h blockHash k]
    constructor
    · rintro ⟨other, hother, hsame⟩
      have hk : k ≠ height := by
        intro hk
        rw [hk, hrecord] at hother
        cases hother
        exact hhash hsame.symm
      exact ⟨other, by rw [if_neg hk, hother], hsame⟩
    · rintro ⟨other, hother, hsame⟩
      by_cases hk : k = height
      · rw [if_pos hk] at hother
        cases hother
      · rw [if_neg hk] at hother
        exact ⟨other, hother, hsame⟩

end HashTableDb
end Nullifier
end SpendabilityPir
