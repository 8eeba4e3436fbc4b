import Mathlib.Algebra.BigOperators.Group.List.Basic
import SpendabilityPir.Nullifier.LiveBlocks
import SpendabilityPir.Nullifier.TableRecords

/-!
# The table represents its live blocks

A table state represents a set of live blocks when each block's record lists the
slots that hold its entries, the listed slots are pairwise distinct and are exactly
the occupied ones, and the hash index and the counter agree with the records.
Every call keeps this relation; no call on such a state panics.
-/

namespace SpendabilityPir
namespace Nullifier

open Foundation

namespace HashTableDb

def HoldsBlock (buckets : Fin numBuckets -> Bucket) (height : Nat)
    (record : BlockRecord) (block : LiveBlock) : Prop :=
  record.blockHash = block.hash ∧
    List.Forall₂ (HoldsEntry buckets (UInt32.ofNat height))
      record.slots block.nullifiers

structure Represents (db : HashTableDb) (live : LiveBlocks) : Prop where
  records : forall height,
    Option.Rel (HoldsBlock db.buckets height) (db.blockIndex.find? height)
      (live.find? height)
  owned : Owned db.buckets (slotRefs db.blockIndex)
  count : db.numEntries = (slotRefs db.blockIndex).length
  total : db.numEntries = LiveBlocks.totalNullifiers live.entries
  hashes : forall blockHash height,
    db.blockHashToHeight blockHash = some height ↔
      exists record, db.blockIndex.find? height = some record ∧
        record.blockHash = blockHash
  heights : forall height record,
    db.blockIndex.find? height = some record -> height < 2 ^ 64

theorem Represents.find?_none_iff {db : HashTableDb} {live : LiveBlocks}
    (hrep : Represents db live) (height : Nat) :
    db.blockIndex.find? height = none ↔ live.find? height = none :=
  OrderedMap.find?_none_iff_of_related (hrep.records height)

theorem Represents.holds {db : HashTableDb} {live : LiveBlocks}
    (hrep : Represents db live) {height : Nat} {record : BlockRecord}
    (h : db.blockIndex.find? height = some record) :
    exists block, live.find? height = some block ∧
      HoldsBlock db.buckets height record block :=
  OrderedMap.exists_related (hrep.records height) h

theorem Represents.find?_record {db : HashTableDb} {live : LiveBlocks}
    (hrep : Represents db live) {height : Nat} {block : LiveBlock}
    (h : live.find? height = some block) :
    exists record, db.blockIndex.find? height = some record ∧
      HoldsBlock db.buckets height record block := by
  have hrel := hrep.records height
  rw [h] at hrel
  generalize db.blockIndex.find? height = record at hrel
  cases hrel with
  | some hblock => exact ⟨_, rfl, hblock⟩

theorem HoldsBlock.frame {buckets buckets' : Fin numBuckets -> Bucket} {height : Nat}
    {record : BlockRecord} {block : LiveBlock}
    (h : HoldsBlock buckets height record block)
    (hframe : forall slot, slot ∈ record.slots ->
      entryAt buckets' slot = entryAt buckets slot) :
    HoldsBlock buckets' height record block := by
  refine ⟨h.left, ?_⟩
  have hslots := h.right
  revert hframe
  generalize record.slots = slots at hslots
  generalize block.nullifiers = nullifiers at hslots
  intro hframe
  induction hslots with
  | nil => exact List.Forall₂.nil
  | cons hhead _ ih =>
      apply List.Forall₂.cons
      · exact ⟨hhead.left, (hframe _ List.mem_cons_self).trans hhead.right⟩
      · exact ih (fun slot hslot => hframe slot (List.mem_cons_of_mem _ hslot))

theorem rel_of_find? {buckets : Fin numBuckets -> Bucket}
    {index : OrderedMap Nat BlockRecord} {live : LiveBlocks} {height : Nat}
    (hnone : index.find? height = none -> live.find? height = none)
    (hsome : forall record, index.find? height = some record ->
      exists block, live.find? height = some block ∧
        HoldsBlock buckets height record block) :
    Option.Rel (HoldsBlock buckets height) (index.find? height)
      (live.find? height) := by
  cases hfind : index.find? height with
  | none =>
      rw [hnone hfind]
      exact Option.Rel.none
  | some record =>
      rcases hsome record hfind with ⟨block, hlive, hblock⟩
      rw [hlive]
      exact Option.Rel.some hblock

/-!
## Inserting a block
-/

theorem Represents.records_insert {db : HashTableDb} {live : LiveBlocks}
    (hrep : Represents db live) {height : Nat} {record : BlockRecord}
    {block : LiveBlock} {buckets : Fin numBuckets -> Bucket}
    (hblock : HoldsBlock buckets height record block)
    (hframe : forall slot, slot ∈ slotRefs db.blockIndex ->
      entryAt buckets slot = entryAt db.buckets slot) (k : Nat) :
    Option.Rel (HoldsBlock buckets k) ((db.blockIndex.insert height record).find? k)
      ((OrderedMap.insert live height block).find? k) := by
  rw [OrderedMap.find?_insert, OrderedMap.find?_insert]
  by_cases hk : k = height
  · rw [if_pos hk, if_pos hk, hk]
    exact Option.Rel.some hblock
  · rw [if_neg hk, if_neg hk]
    apply rel_of_find? (hrep.find?_none_iff k).mp
    intro other hother
    rcases hrep.holds hother with ⟨otherBlock, hotherAt, hholds⟩
    refine ⟨otherBlock, hotherAt, hholds.frame ?_⟩
    intro slot hslot
    exact hframe slot (mem_slotRefs.mpr ⟨k, other, hother, hslot⟩)

theorem represents_insertBlock {db db' : HashTableDb} {live : LiveBlocks}
    {height : Nat} {blockHash : ByteVec 32} {nullifiers : List NullifierWithMeta}
    (hrep : Represents db live) (hheight : height < 2 ^ 64)
    (hfreshHeight : db.blockIndex.find? height = none)
    (hfreshHash : db.blockHashToHeight blockHash = none)
    (hnonzero : forall nwm, nwm ∈ nullifiers -> nwm.nullifier ≠ ByteVec.zeros 32)
    (h : insertBlock db height blockHash nullifiers = (db', .ok ())) :
    Represents db'
      (live.insertBlock height { hash := blockHash, nullifiers := nullifiers }) := by
  unfold insertBlock at h
  cases hloop : insertNullifiers (UInt32.ofNat height) db [] nullifiers with
  | mk mid result =>
      cases result with
      | error e =>
          rw [hloop] at h
          cases h
      | ok slots =>
          rw [hloop] at h
          cases h
          rcases insertNullifiers_ok hrep.owned hnonzero hloop with
            ⟨new, hslots, hholds, howned, hframe, hcount, hindex, hhash⟩
          rw [List.nil_append] at hslots
          subst hslots
          have hlen : slots.length = nullifiers.length := hholds.length_eq
          have hfreshMid : mid.blockIndex.find? height = none := by
            rw [hindex]
            exact hfreshHeight
          have hperm := slotRefs_insert_perm
            { blockHash := blockHash, slots := slots } hfreshMid
          rw [hindex] at hperm
          have hliveFresh : live.find? height = none :=
            (hrep.find?_none_iff height).mp hfreshHeight
          constructor
          · intro k
            show Option.Rel _ ((mid.blockIndex.insert height _).find? k) _
            rw [hindex]
            exact hrep.records_insert ⟨rfl, hholds⟩ hframe k
          · rw [hindex]
            exact howned.perm hperm.symm
          · show mid.numEntries = (slotRefs (mid.blockIndex.insert height _)).length
            rw [hindex, hperm.length_eq, List.length_append, hcount, hrep.count, hlen]
          · have hentries := (OrderedMap.entries_insert_perm
              { hash := blockHash, nullifiers := nullifiers } hliveFresh).map
              (fun e => e.2.nullifiers.length)
            show mid.numEntries =
              ((OrderedMap.insert live height _).entries.map _).sum
            rw [hentries.sum_eq, hcount, hrep.total, List.map_cons, List.sum_cons,
              Nat.add_comm]
            rfl
          · have hindexed : HashIndexed db.blockHashToHeight db.blockIndex := hrep.hashes
            show HashIndexed
              (Function.update mid.blockHashToHeight blockHash (some height))
              (mid.blockIndex.insert height _)
            rw [hhash, hindex]
            exact hindexed.insert { blockHash := blockHash, slots := slots }
              hfreshHeight hfreshHash
          · intro k record hrecord
            simp only [OrderedMap.find?_insert, hindex] at hrecord
            by_cases hk : k = height
            · rw [hk]
              exact hheight
            · rw [if_neg hk] at hrecord
              exact hrep.heights k record hrecord

/-!
## Removing a block
-/

theorem totalNullifiers_perm_erase {live : LiveBlocks} {height : Nat}
    {block : LiveBlock} (h : live.find? height = some block) :
    LiveBlocks.totalNullifiers live.entries =
      block.nullifiers.length +
        LiveBlocks.totalNullifiers (live.erase height).entries := by
  have hperm := (OrderedMap.entries_perm_erase h).map
    (fun e => e.2.nullifiers.length)
  show (live.entries.map _).sum = _
  rw [hperm.sum_eq, List.map_cons, List.sum_cons]
  rfl

theorem Represents.records_erase {db : HashTableDb} {live : LiveBlocks}
    (hrep : Represents db live) {height : Nat} {buckets : Fin numBuckets -> Bucket}
    (hframe : forall slot, slot ∈ slotRefs (db.blockIndex.erase height) ->
      entryAt buckets slot = entryAt db.buckets slot) (k : Nat) :
    Option.Rel (HoldsBlock buckets k) ((db.blockIndex.erase height).find? k)
      ((OrderedMap.erase live height).find? k) := by
  apply rel_of_find?
  · intro hnone
    rw [OrderedMap.find?_erase] at hnone ⊢
    by_cases hk : k = height
    · rw [if_pos hk]
    · rw [if_neg hk] at hnone ⊢
      exact (hrep.find?_none_iff k).mp hnone
  · intro record hrecord
    have hlisted : forall slot, slot ∈ record.slots ->
        slot ∈ slotRefs (db.blockIndex.erase height) :=
      fun slot hslot => mem_slotRefs.mpr ⟨k, record, hrecord, hslot⟩
    rw [OrderedMap.find?_erase] at hrecord ⊢
    by_cases hk : k = height
    · rw [if_pos hk] at hrecord
      cases hrecord
    · rw [if_neg hk] at hrecord ⊢
      rcases hrep.holds hrecord with ⟨block, hblockAt, hholds⟩
      refine ⟨block, hblockAt, hholds.frame ?_⟩
      intro slot hslot
      exact hframe slot (hlisted slot hslot)

theorem represents_removeRecord {db : HashTableDb} {live : LiveBlocks}
    {height : Nat} {record : BlockRecord} (hrep : Represents db live)
    (hrecord : db.blockIndex.find? height = some record) :
    exists db',
      ((db.forgetHash record.blockHash).forgetHeight height).removeRecord record =
        some db' ∧
      Represents db' (live.erase height) := by
  rcases hrep.owned.removeRecord hrep.count hrecord with
    ⟨buckets, hremove, howned, hcount, hframe⟩
  rcases hrep.holds hrecord with ⟨block, hblockAt, hblock⟩
  refine ⟨_, hremove, ?_⟩
  constructor
  · exact hrep.records_erase hframe
  · exact howned
  · show db.numEntries - record.slots.length =
      (slotRefs (db.blockIndex.erase height)).length
    lia
  · have htotal := totalNullifiers_perm_erase hblockAt
    have hlen : record.slots.length = block.nullifiers.length :=
      hblock.right.length_eq
    have hbefore := hrep.total
    show db.numEntries - record.slots.length =
      LiveBlocks.totalNullifiers (live.erase height).entries
    lia
  · have hindexed : HashIndexed db.blockHashToHeight db.blockIndex := hrep.hashes
    exact hindexed.erase hrecord
  · intro k other hother
    simp only [OrderedMap.find?_erase] at hother
    by_cases hk : k = height
    · rw [if_pos hk] at hother
      cases hother
    · rw [if_neg hk] at hother
      exact hrep.heights k other hother

/-!
## Rollback
-/

theorem Represents.containsHash_iff {db : HashTableDb} {live : LiveBlocks}
    (hrep : Represents db live) (blockHash : ByteVec 32) :
    live.ContainsHash blockHash ↔
      exists height, db.blockHashToHeight blockHash = some height := by
  constructor
  · rintro ⟨height, block, hblock, hhash⟩
    rcases hrep.find?_record hblock with ⟨record, hrecord, hholds⟩
    refine ⟨height, (hrep.hashes blockHash height).mpr ⟨record, hrecord, ?_⟩⟩
    rw [hholds.left, hhash]
  · rintro ⟨height, hheight⟩
    rcases (hrep.hashes blockHash height).mp hheight with ⟨record, hrecord, hhash⟩
    rcases hrep.holds hrecord with ⟨block, hblock, hholds⟩
    exact ⟨height, block, hblock, hholds.left.symm.trans hhash⟩

theorem rollbackBlock_of_not_containsHash {live : LiveBlocks}
    {blockHash : ByteVec 32} (h : ¬ live.ContainsHash blockHash) :
    live.rollbackBlock blockHash = live := by
  apply OrderedMap.ext_find?
  intro k
  rw [LiveBlocks.rollbackBlock, OrderedMap.find?_filterValues]
  cases hfind : live.find? k with
  | none => rfl
  | some block =>
      have hne : block.hash ≠ blockHash := fun heq => h ⟨k, block, hfind, heq⟩
      simp [hne]

theorem Represents.rollbackBlock_eq_erase {db : HashTableDb} {live : LiveBlocks}
    (hrep : Represents db live) {blockHash : ByteVec 32} {height : Nat}
    (h : db.blockHashToHeight blockHash = some height) :
    live.rollbackBlock blockHash = live.erase height := by
  apply OrderedMap.ext_find?
  intro k
  rw [LiveBlocks.rollbackBlock, OrderedMap.find?_filterValues,
    OrderedMap.find?_erase]
  rcases (hrep.hashes blockHash height).mp h with ⟨record, hrecord, hhash⟩
  cases hfind : live.find? k with
  | none => simp
  | some block =>
      rcases hrep.find?_record hfind with ⟨other, hother, hholds⟩
      by_cases hk : k = height
      · rw [hk, hrecord] at hother
        cases hother
        have heq : block.hash = blockHash := hholds.left.symm.trans hhash
        simp [hk, heq]
      · have hne : block.hash ≠ blockHash := by
          intro heq
          have hindexed : HashIndexed db.blockHashToHeight db.blockIndex := hrep.hashes
          have hsame := (hholds.left.trans heq).trans hhash.symm
          exact hk (hindexed.height_unique hrecord hother hsame)
        simp [hk, hne]

theorem represents_rollbackBlock {db : HashTableDb} {live : LiveBlocks}
    (hrep : Represents db live) (blockHash : ByteVec 32) :
    exists db' result,
      rollbackBlock db blockHash = some (db', result) ∧
      Represents db' (live.rollbackBlock blockHash) ∧
      (result = .ok () ↔ live.ContainsHash blockHash) ∧
      (¬ live.ContainsHash blockHash -> db' = db) := by
  cases hlookup : db.blockHashToHeight blockHash with
  | none =>
      have hnot : ¬ live.ContainsHash blockHash := by
        rw [hrep.containsHash_iff, hlookup]
        rintro ⟨height, hfalse⟩
        cases hfalse
      refine ⟨db, .error .blockNotFound, ?_, ?_, ?_, fun _ => rfl⟩
      · rw [rollbackBlock, hlookup]
      · rw [rollbackBlock_of_not_containsHash hnot]
        exact hrep
      · constructor
        · intro hfalse
          cases hfalse
        · intro hcontains
          exact absurd hcontains hnot
  | some height =>
      have hcontains : live.ContainsHash blockHash :=
        (hrep.containsHash_iff blockHash).mpr ⟨height, hlookup⟩
      rcases (hrep.hashes blockHash height).mp hlookup with ⟨record, hrecord, hhash⟩
      rcases represents_removeRecord hrep hrecord with ⟨db', hremove, hrep'⟩
      rw [hhash] at hremove
      refine ⟨db', .ok (), ?_, ?_, ?_, fun hnot => absurd hcontains hnot⟩
      · rw [rollbackBlock, hlookup]
        simp only [hrecord, hremove]
      · rw [hrep.rollbackBlock_eq_erase hlookup]
        exact hrep'
      · exact ⟨fun _ => hcontains, fun _ => rfl⟩

/-!
## Eviction
-/

theorem Represents.first?_eq_none_iff {db : HashTableDb} {live : LiveBlocks}
    (hrep : Represents db live) :
    db.blockIndex.first? = none ↔ live.first? = none := by
  rw [OrderedMap.first?_eq_none_iff, OrderedMap.first?_eq_none_iff]
  exact forall_congr' hrep.find?_none_iff

theorem Represents.first?_fst_eq {db : HashTableDb} {live : LiveBlocks}
    (hrep : Represents db live) {height : Nat} {record : BlockRecord}
    (h : db.blockIndex.first? = some (height, record)) :
    exists block rest, live.entries = (height, block) :: rest := by
  rcases OrderedMap.first?_related hrep.records h with ⟨block, hfirst, _⟩
  rcases List.head?_eq_some_iff.mp hfirst with ⟨rest, hentries⟩
  exact ⟨block, rest, hentries⟩

theorem evictOldestBlock_eq_erase {live : LiveBlocks} {height : Nat}
    {block : LiveBlock} {rest : List (Nat × LiveBlock)}
    (h : live.entries = (height, block) :: rest) :
    live.evictOldestBlock = live.erase height := by
  have herase : (live.erase height).entries = rest :=
    OrderedMap.entries_erase_first h
  apply OrderedMap.ext
  rw [herase]
  show live.entries.tail = rest
  rw [h]
  rfl

theorem represents_evictOldestBlock {db : HashTableDb} {live : LiveBlocks}
    (hrep : Represents db live) :
    exists db' height,
      evictOldestBlock db = some (db', height) ∧
      Represents db' live.evictOldestBlock ∧
      height = live.first?.map Prod.fst := by
  cases hfirst : db.blockIndex.first? with
  | none =>
      have hnone : live.first? = none := hrep.first?_eq_none_iff.mp hfirst
      have hnil : live.entries = [] := List.head?_eq_none_iff.mp hnone
      have hsame : live.evictOldestBlock = live := by
        apply OrderedMap.ext
        show live.entries.tail = live.entries
        rw [hnil]
        rfl
      refine ⟨db, none, ?_, ?_, ?_⟩
      · rw [evictOldestBlock, hfirst]
      · rw [hsame]
        exact hrep
      · rw [hnone]
        rfl
  | some e =>
      rcases e with ⟨height, record⟩
      rcases hrep.first?_fst_eq hfirst with ⟨block, rest, hentries⟩
      rcases represents_removeRecord hrep (OrderedMap.find?_of_first? hfirst) with
        ⟨db', hremove, hrep'⟩
      refine ⟨db', some height, ?_, ?_, ?_⟩
      · rw [evictOldestBlock, hfirst]
        simp only [show ((db.forgetHeight height).forgetHash record.blockHash) =
          ((db.forgetHash record.blockHash).forgetHeight height) from rfl, hremove]
      · rw [evictOldestBlock_eq_erase hentries]
        exact hrep'
      · rw [OrderedMap.first?, hentries]
        rfl

/-- Eviction to the target size removes the blocks `trimEntries` drops. -/
theorem represents_evictToTarget {db : HashTableDb} {live : LiveBlocks}
    (hrep : Represents db live) :
    exists db', evictToTarget db = some db' ∧ Represents db' live.evictToTarget := by
  cases hentries : live.entries with
  | nil =>
      have hzero : ¬ db.numEntries > targetSize := by
        rw [hrep.total, hentries]
        decide
      have hsame : live.evictToTarget = live := by
        apply OrderedMap.ext
        show LiveBlocks.trimEntries targetSize live.entries = live.entries
        rw [hentries]
        rfl
      refine ⟨db, ?_, ?_⟩
      · rw [evictToTarget, if_neg hzero]
      · rw [hsame]
        exact hrep
  | cons e rest =>
      have hcount : db.numEntries = LiveBlocks.totalNullifiers (e :: rest) := by
        rw [hrep.total, hentries]
      by_cases hover : db.numEntries > targetSize
      · rcases represents_evictOldestBlock hrep with ⟨mid, height, hevict, hmid, hkey⟩
        have hmidEntries : live.evictOldestBlock.entries = rest := by
          show live.entries.tail = rest
          rw [hentries]
          rfl
        have hshrink : live.evictOldestBlock.entries.length <
            live.entries.length := by
          rw [hmidEntries, hentries]
          exact Nat.lt_succ_self _
        rcases represents_evictToTarget hmid with ⟨db', hrest, hrep'⟩
        have hsame : live.evictToTarget = live.evictOldestBlock.evictToTarget := by
          apply OrderedMap.ext
          show LiveBlocks.trimEntries targetSize live.entries =
            LiveBlocks.trimEntries targetSize live.evictOldestBlock.entries
          rw [hmidEntries, hentries, LiveBlocks.trimEntries,
            if_pos (hcount ▸ hover)]
        have hsome : height = some e.1 := by
          rw [hkey, OrderedMap.first?, hentries]
          rfl
        refine ⟨db', ?_, ?_⟩
        · rw [evictToTarget_of_gt hover, hevict, hsome]
          exact hrest
        · rw [hsame]
          exact hrep'
      · have hsame : live.evictToTarget = live := by
          apply OrderedMap.ext
          show LiveBlocks.trimEntries targetSize live.entries = live.entries
          rw [hentries, LiveBlocks.trimEntries, if_neg (hcount ▸ hover)]
        refine ⟨db, ?_, ?_⟩
        · rw [evictToTarget, if_neg hover]
        · rw [hsame]
          exact hrep
termination_by live.entries.length

theorem represents_new : Represents new OrderedMap.empty := by
  constructor
  · intro height
    exact Option.Rel.none
  · constructor
    · exact List.nodup_nil
    · intro slot
      have hempty : (entryAt new.buckets slot).isEmpty = true := by
        unfold entryAt
        split
        · exact NullifierEntry.isEmpty_zero
        · exact NullifierEntry.isEmpty_zero
      rw [hempty]
      simp [slotRefs, new, OrderedMap.empty]
  · rfl
  · rfl
  · intro blockHash height
    simp [new]
  · intro height record hfalse
    cases hfalse

end HashTableDb
end Nullifier
end SpendabilityPir
