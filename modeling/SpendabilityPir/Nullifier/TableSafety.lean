import SpendabilityPir.Nullifier.TableRefinement

/-!
# Tables that never panic

As long as the slots of the records are in range and counted, no removal panics.  Every
insertion keeps that, a failing one too: what it wrote is counted and belongs to no
record.
-/

namespace SpendabilityPir
namespace Nullifier

open Foundation

namespace HashTableDb

/-- The slots of the records are in range, and the entry counter covers them. -/
structure Backed (db : HashTableDb) : Prop where
  inRange : forall slot, slot ∈ slotRefs db.blockIndex ->
    slot.1 < numBuckets ∧ slot.2 < bucketCapacity
  covered : (slotRefs db.blockIndex).length ≤ db.numEntries

theorem backed_new : new.Backed :=
  ⟨fun _ hfalse => (nomatch hfalse), Nat.le_refl 0⟩

/-!
## Insertion
-/

theorem insertNullifiers_counts {spendHeight : UInt32}
    {nullifiers : List NullifierWithMeta} {db db' : HashTableDb}
    {slots : List (Nat × Nat)} {result : Except HashTableError (List (Nat × Nat))}
    (h : insertNullifiers spendHeight db slots nullifiers = (db', result)) :
    db'.blockIndex = db.blockIndex ∧ db.numEntries ≤ db'.numEntries ∧
    db'.numEntries ≤ db.numEntries + nullifiers.length ∧
    forall slots', result = .ok slots' -> exists new, slots' = slots ++ new ∧
      new.length = nullifiers.length ∧
      db'.numEntries = db.numEntries + nullifiers.length ∧
      forall slot, slot ∈ new -> slot.1 < numBuckets ∧ slot.2 < bucketCapacity := by
  induction nullifiers generalizing db slots with
  | nil =>
      cases h
      refine ⟨rfl, Nat.le_refl _, Nat.le_refl _, ?_⟩
      intro slots' hslots
      cases hslots
      exact ⟨[], by simp⟩
  | cons nwm rest ih =>
      unfold insertNullifiers at h
      cases hfree : (db.buckets (hashToBucket nwm.nullifier)).findFreeSlot with
      | none =>
          simp only [hfree] at h
          cases h
          refine ⟨rfl, Nat.le_refl _, Nat.le_add_right _ _, ?_⟩
          intro slots' hfalse
          cases hfalse
      | some i =>
          simp only [hfree] at h
          rcases ih h with ⟨hindex, hle, hupper, hok⟩
          change _ ≤ db.numEntries + 1 + rest.length at hupper
          refine ⟨hindex, Nat.le_trans (Nat.le_succ _) hle, ?_, ?_⟩
          · rw [List.length_cons]
            lia
          intro slots' hslots
          rcases hok slots' hslots with ⟨new, heq, hlength, hcount, hrange⟩
          refine ⟨((hashToBucket nwm.nullifier).val, i.val) :: new, ?_, ?_, ?_, ?_⟩
          · rw [heq, List.append_assoc]
            rfl
          · rw [List.length_cons, List.length_cons, hlength]
          · rw [hcount, List.length_cons]
            change db.numEntries + 1 + rest.length = _
            lia
          · intro slot hslot
            rcases List.mem_cons.mp hslot with hhead | htail
            · rw [hhead]
              exact ⟨(hashToBucket nwm.nullifier).isLt, i.isLt⟩
            · exact hrange slot htail

theorem length_slotRefs_insert_le (index : OrderedMap Nat BlockRecord) (height : Nat)
    (record : BlockRecord) :
    (slotRefs (index.insert height record)).length ≤
      (slotRefs index).length + record.slots.length := by
  cases hfind : index.find? height with
  | none =>
      have hperm := slotRefs_insert_perm record hfind
      rw [hperm.length_eq, List.length_append]
  | some old =>
      have hback : index.insert height record = (index.erase height).insert height record := by
        apply OrderedMap.ext_find?
        intro k
        rw [OrderedMap.find?_insert, OrderedMap.find?_insert, OrderedMap.find?_erase]
        split <;> rfl
      have hfresh : (index.erase height).find? height = none := by simp
      have hperm := slotRefs_insert_perm record hfresh
      have herased := slotRefs_perm_erase hfind
      rw [hback, hperm.length_eq, herased.length_eq, List.length_append, List.length_append]
      lia

theorem mem_slotRefs_insert {index : OrderedMap Nat BlockRecord} {height : Nat}
    {record : BlockRecord} {slot : Nat × Nat}
    (h : slot ∈ slotRefs (index.insert height record)) :
    slot ∈ slotRefs index ∨ slot ∈ record.slots := by
  rcases mem_slotRefs.mp h with ⟨k, found, hfind, hslot⟩
  rw [OrderedMap.find?_insert] at hfind
  split at hfind
  · cases hfind
    exact Or.inr hslot
  · exact Or.inl (mem_slotRefs.mpr ⟨k, found, hfind, hslot⟩)

theorem insertBlock_counts {db db' : HashTableDb} {height : Nat} {blockHash : ByteVec 32}
    {nullifiers : List NullifierWithMeta}
    (h : db.insertBlock height blockHash nullifiers = (db', .ok ())) :
    exists slots, db'.blockIndex = db.blockIndex.insert height
        { blockHash := blockHash, slots := slots } ∧
      slots.length = nullifiers.length ∧
      db'.numEntries = db.numEntries + nullifiers.length ∧
      forall slot, slot ∈ slots -> slot.1 < numBuckets ∧ slot.2 < bucketCapacity := by
  unfold insertBlock at h
  split at h
  · cases h
  · next mid slots hinsert =>
      cases h
      rcases insertNullifiers_counts hinsert with ⟨hindex, _, _, hok⟩
      rcases hok slots rfl with ⟨new, heq, hlength, hcount, hrange⟩
      rw [List.nil_append] at heq
      rw [← heq] at hlength hrange
      refine ⟨slots, ?_, hlength, hcount, hrange⟩
      rw [← hindex]

theorem Backed.insertBlock {db : HashTableDb} (h : db.Backed) (height : Nat)
    (blockHash : ByteVec 32) (nullifiers : List NullifierWithMeta) :
    (db.insertBlock height blockHash nullifiers).1.Backed := by
  cases hinsert : db.insertBlock height blockHash nullifiers with
  | mk db' result =>
      cases result with
      | error e =>
          unfold HashTableDb.insertBlock at hinsert
          split at hinsert
          · next mid _ hloop =>
              cases hinsert
              rcases insertNullifiers_counts hloop with ⟨hindex, hle, _⟩
              constructor
              · rw [hindex]
                exact h.inRange
              · rw [hindex]
                exact Nat.le_trans h.covered hle
          · cases hinsert
      | ok u =>
          rcases insertBlock_counts hinsert with ⟨slots, hindex, hlength, hcount, hrange⟩
          constructor
          · intro slot hslot
            rw [hindex] at hslot
            rcases mem_slotRefs_insert hslot with hold | hnew
            · exact h.inRange slot hold
            · exact hrange slot hnew
          · have hle := length_slotRefs_insert_le db.blockIndex height
              { blockHash := blockHash, slots := slots }
            have hcovered := h.covered
            rw [hindex, hcount]
            change _ ≤ _ + slots.length at hle
            lia

/-!
## Removal
-/

theorem Backed.removeRecord {db db' : HashTableDb} {height : Nat} {record : BlockRecord}
    (h : db.Backed) (hfind : db.blockIndex.find? height = some record)
    (hindex : db'.blockIndex = db.blockIndex.erase height)
    (hcount : db'.numEntries = db.numEntries) :
    exists removed, db'.removeRecord record = some removed ∧ removed.Backed ∧
      removed.blockIndex = db.blockIndex.erase height ∧
      removed.numEntries + record.slots.length = db.numEntries := by
  have hperm := slotRefs_perm_erase hfind
  have hlength := hperm.length_eq
  rw [List.length_append] at hlength
  have hcovered := h.covered
  have hrange : forall slot, slot ∈ record.slots ->
      slot.1 < numBuckets ∧ slot.2 < bucketCapacity := by
    intro slot hslot
    exact h.inRange slot (mem_slotRefs.mpr ⟨height, record, hfind, hslot⟩)
  rcases removeSlots_isSome db'.buckets hrange with ⟨buckets, hbuckets⟩
  have hle : record.slots.length ≤ db'.numEntries := by lia
  refine ⟨{ db' with
      buckets := buckets
      numEntries := db'.numEntries - record.slots.length }, ?_, ⟨?_, ?_⟩, hindex, ?_⟩
  · rw [HashTableDb.removeRecord, hbuckets]
    exact if_pos hle
  · intro slot hslot
    change slot ∈ slotRefs db'.blockIndex at hslot
    rw [hindex] at hslot
    exact h.inRange slot (hperm.mem_iff.mpr (List.mem_append_right _ hslot))
  · change (slotRefs db'.blockIndex).length ≤ db'.numEntries - record.slots.length
    rw [hindex]
    lia
  · change db'.numEntries - record.slots.length + record.slots.length = _
    lia

theorem Backed.evictOldestBlock {db : HashTableDb} (h : db.Backed) :
    (db.blockIndex.first? = none ∧ db.evictOldestBlock = some (db, none)) ∨
    exists first evicted, db.blockIndex.first? = some first ∧
      db.evictOldestBlock = some (evicted, some first.1) ∧ evicted.Backed ∧
      evicted.blockIndex = db.blockIndex.erase first.1 ∧
      evicted.numEntries + first.2.slots.length = db.numEntries := by
  rw [HashTableDb.evictOldestBlock]
  cases hfirst : db.blockIndex.first? with
  | none => exact Or.inl ⟨rfl, rfl⟩
  | some first =>
      right
      have hmid : ((db.forgetHeight first.1).forgetHash first.2.blockHash).blockIndex =
          db.blockIndex.erase first.1 := rfl
      rcases h.removeRecord (OrderedMap.find?_of_first? hfirst) hmid rfl with
        ⟨evicted, hremove, hbacked, hindex, hcount⟩
      refine ⟨first, evicted, rfl, ?_, hbacked, hindex, hcount⟩
      dsimp only
      rw [hremove]

theorem evictToTarget_invariant {P : HashTableDb -> Prop}
    (hstep : forall db, P db -> db.numEntries > targetSize ->
      exists db' height, db.evictOldestBlock = some (db', height) ∧ P db')
    {db : HashTableDb} (h : P db) : exists db', db.evictToTarget = some db' ∧ P db' := by
  induction hsize : db.blockIndex.size using Nat.strong_induction_on generalizing db with
  | _ size ih =>
      by_cases hgt : db.numEntries > targetSize
      · rcases hstep db h hgt with ⟨db', height, hevict, hkept⟩
        rw [evictToTarget_of_gt hgt, hevict]
        cases height with
        | none => exact ⟨db', rfl, hkept⟩
        | some height =>
            have hlt := evictOldestBlock_size_lt hevict
            rw [hsize] at hlt
            exact ih _ hlt hkept rfl
      · exact ⟨db, evictToTarget_of_le (Nat.le_of_not_gt hgt), h⟩

theorem Backed.evictToTarget {db : HashTableDb} (h : db.Backed) :
    exists db', db.evictToTarget = some db' ∧ db'.Backed := by
  apply evictToTarget_invariant _ h
  intro db hbacked _
  rcases hbacked.evictOldestBlock with ⟨_, hevict⟩ | ⟨first, evicted, _, hevict, hkept, _⟩
  · exact ⟨db, none, hevict, hbacked⟩
  · exact ⟨evicted, some first.1, hevict, hkept⟩

/-!
## Exact counters
-/

/-- The slots of the records are in range, and the entry counter counts them. -/
structure Counted (db : HashTableDb) : Prop where
  inRange : forall slot, slot ∈ slotRefs db.blockIndex ->
    slot.1 < numBuckets ∧ slot.2 < bucketCapacity
  count : db.numEntries = (slotRefs db.blockIndex).length

theorem Counted.backed {db : HashTableDb} (h : db.Counted) : db.Backed :=
  ⟨h.inRange, Nat.le_of_eq h.count.symm⟩

theorem counted_new : new.Counted :=
  ⟨fun _ hfalse => (nomatch hfalse), rfl⟩

theorem Counted.insertBlock {db db' : HashTableDb} {height : Nat}
    {blockHash : ByteVec 32} {nullifiers : List NullifierWithMeta} (h : db.Counted)
    (hfresh : db.blockIndex.find? height = none)
    (hinsert : db.insertBlock height blockHash nullifiers = (db', .ok ())) :
    db'.Counted := by
  rcases insertBlock_counts hinsert with ⟨slots, hindex, hlength, hcount, hrange⟩
  have hperm := slotRefs_insert_perm { blockHash := blockHash, slots := slots } hfresh
  constructor
  · intro slot hslot
    rw [hindex] at hslot
    rcases mem_slotRefs_insert hslot with hold | hnew
    · exact h.inRange slot hold
    · exact hrange slot hnew
  · rw [hcount, hindex, hperm.length_eq, List.length_append, h.count]
    exact congrArg _ hlength.symm

theorem last?_erase_first {index : OrderedMap Nat BlockRecord}
    {first last : Nat × BlockRecord} (hfirst : index.first? = some first)
    (hlast : index.last? = some last) :
    (index.erase first.1).last? = some last ∨
    (slotRefs index).length = last.2.slots.length := by
  rcases List.head?_eq_some_iff.mp hfirst with ⟨rest, hentries⟩
  have herase : (index.erase first.1).entries = rest := OrderedMap.entries_erase_first hentries
  change index.entries.getLast? = some last at hlast
  rw [hentries] at hlast
  cases hrest : rest with
  | nil =>
      right
      rw [hrest] at hlast hentries
      rw [slotRefs, hentries, List.flatMap_singleton]
      cases hlast
      rfl
  | cons second others =>
      left
      change (index.erase first.1).entries.getLast? = some last
      rw [herase, ← hlast, hrest, List.getLast?_cons_cons]

/-- The newest block outlasts the eviction loop, if its nullifiers fit the target. -/
theorem Counted.evictToTarget {db : HashTableDb} {last : Nat × BlockRecord}
    (h : db.Counted) (hlast : db.blockIndex.last? = some last)
    (hfits : last.2.slots.length ≤ targetSize) :
    exists db', db.evictToTarget = some db' ∧ db'.Counted ∧
      db'.blockIndex.last? = some last := by
  apply evictToTarget_invariant (P := fun db => db.Counted ∧
    db.blockIndex.last? = some last) _ ⟨h, hlast⟩
  intro db hkept hgt
  rcases hkept with ⟨hcounted, hnewest⟩
  rcases hcounted.backed.evictOldestBlock with
    ⟨_, hevict⟩ | ⟨first, evicted, hfirst, hevict, hbacked, hindex, hcount⟩
  · exact ⟨db, none, hevict, hcounted, hnewest⟩
  · refine ⟨evicted, some first.1, hevict, ⟨hbacked.inRange, ?_⟩, ?_⟩
    · have hperm := slotRefs_perm_erase (OrderedMap.find?_of_first? hfirst)
      have hlength := hperm.length_eq
      rw [List.length_append] at hlength
      have hexact := hcounted.count
      rw [hindex]
      lia
    · rw [hindex]
      rcases last?_erase_first hfirst hnewest with hkeeps | honly
      · exact hkeeps
      · have hexact := hcounted.count
        lia

end HashTableDb
end Nullifier
end SpendabilityPir
