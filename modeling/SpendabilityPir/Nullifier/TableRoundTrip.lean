import SpendabilityPir.Nullifier.TableHistory

/-!
# Restored tables behave the same

A restored table has the contents of the saved one; only the high-water marks may
differ, which no call reads.  Calls on tables of the same contents give the same
replies and leave tables of the same contents.
-/

namespace SpendabilityPir
namespace Nullifier

open Foundation

inductive TableCall where
  | insertBlock (height : UInt64) (blockHash : ByteVec 32)
      (nullifiers : List NullifierWithMeta)
  | rollbackBlock (blockHash : ByteVec 32)
  | evictOldestBlock
  | evictToTarget
  | toPirBytes

inductive TableReply where
  | result (outcome : Except HashTableError Unit)
  | evicted (height : Option Nat)
  | done
  | bytes (pirBytes : List UInt8)

namespace HashTableDb

/-- Make a call; `none` is a panic. -/
def call (db : HashTableDb) : TableCall -> Option (HashTableDb × TableReply)
  | .insertBlock height blockHash nullifiers =>
      let inserted := db.insertBlock height.toNat blockHash nullifiers
      some (inserted.1, .result inserted.2)
  | .rollbackBlock blockHash =>
      (db.rollbackBlock blockHash).map (fun r => (r.1, .result r.2))
  | .evictOldestBlock => db.evictOldestBlock.map (fun r => (r.1, .evicted r.2))
  | .evictToTarget => db.evictToTarget.map (fun db' => (db', .done))
  | .toPirBytes => some (db, .bytes db.toPirBytes)

/-- The replies to a sequence of calls, which a panic ends. -/
def replies : HashTableDb -> List TableCall -> List (Option TableReply)
  | _, [] => []
  | db, first :: rest =>
      match db.call first with
      | none => [none]
      | some (db', reply) => some reply :: replies db' rest

/-!
## Tables of the same contents
-/

/-- The entries, both indices and the counter are the same. -/
structure SameContents (db db' : HashTableDb) : Prop where
  entries : forall b, (db'.buckets b).entries = (db.buckets b).entries
  blockIndex : db'.blockIndex = db.blockIndex
  blockHashToHeight : db'.blockHashToHeight = db.blockHashToHeight
  numEntries : db'.numEntries = db.numEntries

theorem sameContents_recounted (db : HashTableDb) : SameContents db db.recounted :=
  { entries := fun _ => rfl
    blockIndex := rfl
    blockHashToHeight := rfl
    numEntries := rfl }

/-- Two calls both panic, or give the same reply and tables of the same contents. -/
def Agree {α : Type} (r r' : Option (HashTableDb × α)) : Prop :=
  Option.Rel (fun p q => SameContents p.1 q.1 ∧ q.2 = p.2) r r'

theorem entries_update {buckets buckets' : Fin numBuckets -> Bucket}
    (h : forall b, (buckets' b).entries = (buckets b).entries) (b : Fin numBuckets)
    {bucket bucket' : Bucket} (hbucket : bucket'.entries = bucket.entries)
    (c : Fin numBuckets) :
    (Function.update buckets' b bucket' c).entries =
      (Function.update buckets b bucket c).entries := by
  by_cases hc : c = b
  · rw [hc, Function.update_self, Function.update_self, hbucket]
  · rw [Function.update_of_ne hc, Function.update_of_ne hc, h]

namespace SameContents

variable {db db' : HashTableDb}

theorem toPirBytes (h : SameContents db db') : db'.toPirBytes = db.toPirBytes := by
  have hbucket : forall b, bucketPirBytes (db'.buckets b) = bucketPirBytes (db.buckets b) := by
    intro b
    rw [bucketPirBytes, h.entries b]
    rfl
  rw [HashTableDb.toPirBytes, funext hbucket]
  rfl

theorem findFreeSlot (h : SameContents db db') (b : Fin numBuckets) :
    (db'.buckets b).findFreeSlot = (db.buckets b).findFreeSlot := by
  rw [Bucket.findFreeSlot, h.entries b]
  rfl

theorem putEntry (h : SameContents db db') (b : Fin numBuckets)
    (slot : Fin bucketCapacity) (entry : NullifierEntry) :
    SameContents (db.putEntry b slot entry) (db'.putEntry b slot entry) := by
  constructor
  · apply entries_update h.entries b
    rw [Bucket.put_entries, Bucket.put_entries, h.entries b]
  · exact h.blockIndex
  · exact h.blockHashToHeight
  · exact congrArg (· + 1) h.numEntries

theorem insertNullifiers (h : SameContents db db') (spendHeight : UInt32)
    (slots : List (Nat × Nat)) (nullifiers : List NullifierWithMeta) :
    SameContents (insertNullifiers spendHeight db slots nullifiers).1
        (insertNullifiers spendHeight db' slots nullifiers).1 ∧
      (HashTableDb.insertNullifiers spendHeight db' slots nullifiers).2 =
        (HashTableDb.insertNullifiers spendHeight db slots nullifiers).2 := by
  induction nullifiers generalizing db db' slots with
  | nil => exact ⟨h, rfl⟩
  | cons nwm rest ih =>
      have hfree := h.findFreeSlot (hashToBucket nwm.nullifier)
      rw [HashTableDb.insertNullifiers, HashTableDb.insertNullifiers]
      rw [hfree]
      cases (db.buckets (hashToBucket nwm.nullifier)).findFreeSlot with
      | none => exact ⟨h, rfl⟩
      | some slot => exact ih (h.putEntry _ slot _) _

theorem insertBlock (h : SameContents db db') (height : Nat) (blockHash : ByteVec 32)
    (nullifiers : List NullifierWithMeta) :
    SameContents (db.insertBlock height blockHash nullifiers).1
        (db'.insertBlock height blockHash nullifiers).1 ∧
      (db'.insertBlock height blockHash nullifiers).2 =
        (db.insertBlock height blockHash nullifiers).2 := by
  rcases h.insertNullifiers (UInt32.ofNat height) [] nullifiers with ⟨hdb, hresult⟩
  rw [HashTableDb.insertBlock, HashTableDb.insertBlock]
  revert hdb hresult
  cases HashTableDb.insertNullifiers (UInt32.ofNat height) db [] nullifiers with
  | mk mid result =>
      cases HashTableDb.insertNullifiers (UInt32.ofNat height) db' [] nullifiers with
      | mk mid' result' =>
          intro hdb hresult
          change result' = result at hresult
          rw [hresult]
          cases result with
          | error e => exact ⟨hdb, rfl⟩
          | ok slots =>
              refine ⟨?_, rfl⟩
              exact
                { entries := hdb.entries
                  blockIndex := congrArg (OrderedMap.insert · height _) hdb.blockIndex
                  blockHashToHeight := by
                    change Function.update mid'.blockHashToHeight _ _ = _
                    rw [hdb.blockHashToHeight]
                  numEntries := hdb.numEntries }

theorem forgetHeight (h : SameContents db db') (height : Nat) :
    SameContents (db.forgetHeight height) (db'.forgetHeight height) :=
  { entries := h.entries
    blockIndex := congrArg (OrderedMap.erase · height) h.blockIndex
    blockHashToHeight := h.blockHashToHeight
    numEntries := h.numEntries }

theorem forgetHash (h : SameContents db db') (blockHash : ByteVec 32) :
    SameContents (db.forgetHash blockHash) (db'.forgetHash blockHash) :=
  { entries := h.entries
    blockIndex := h.blockIndex
    blockHashToHeight := by
      change Function.update db'.blockHashToHeight blockHash none = _
      rw [h.blockHashToHeight]
      rfl
    numEntries := h.numEntries }

end SameContents

theorem removeSlots_rel {buckets buckets' : Fin numBuckets -> Bucket}
    (h : forall b, (buckets' b).entries = (buckets b).entries) (slots : List (Nat × Nat)) :
    Option.Rel (fun r r' => forall b, (r' b).entries = (r b).entries)
      (removeSlots buckets slots) (removeSlots buckets' slots) := by
  induction slots generalizing buckets buckets' with
  | nil => exact Option.Rel.some h
  | cons slot rest ih =>
      by_cases hin : slot.1 < numBuckets ∧ slot.2 < bucketCapacity
      · rw [removeSlots, removeSlot, dif_pos hin, removeSlots, removeSlot, dif_pos hin]
        apply ih
        apply entries_update h
        rw [Bucket.remove_entries, Bucket.remove_entries, h]
      · rw [removeSlots, removeSlot, dif_neg hin, removeSlots, removeSlot, dif_neg hin]
        exact Option.Rel.none

namespace SameContents

variable {db db' : HashTableDb}

theorem removeRecord (h : SameContents db db') (record : BlockRecord) :
    Option.Rel SameContents (db.removeRecord record) (db'.removeRecord record) := by
  have hslots := removeSlots_rel h.entries record.slots
  rw [HashTableDb.removeRecord, HashTableDb.removeRecord]
  generalize removeSlots db.buckets record.slots = buckets at hslots
  generalize removeSlots db'.buckets record.slots = buckets' at hslots
  cases hslots with
  | none => exact Option.Rel.none
  | some hentries =>
      dsimp only
      rw [h.numEntries]
      split
      · apply Option.Rel.some
        exact
          { entries := hentries
            blockIndex := h.blockIndex
            blockHashToHeight := h.blockHashToHeight
            numEntries := rfl }
      · exact Option.Rel.none

theorem rollbackBlock (h : SameContents db db') (blockHash : ByteVec 32) :
    Agree (db.rollbackBlock blockHash) (db'.rollbackBlock blockHash) := by
  rw [HashTableDb.rollbackBlock, HashTableDb.rollbackBlock, h.blockHashToHeight,
    h.blockIndex]
  cases db.blockHashToHeight blockHash with
  | none => exact Option.Rel.some ⟨h, rfl⟩
  | some height =>
      dsimp only
      cases db.blockIndex.find? height with
      | none => exact Option.Rel.some ⟨h.forgetHash blockHash, rfl⟩
      | some record =>
          have hremoved :=
            ((h.forgetHash blockHash).forgetHeight height).removeRecord record
          dsimp only
          generalize HashTableDb.removeRecord _ record = r at hremoved ⊢
          generalize HashTableDb.removeRecord _ record = r' at hremoved ⊢
          cases hremoved with
          | none => exact Option.Rel.none
          | some hdb => exact Option.Rel.some ⟨hdb, rfl⟩

theorem evictOldestBlock (h : SameContents db db') :
    Agree db.evictOldestBlock db'.evictOldestBlock := by
  rw [HashTableDb.evictOldestBlock, HashTableDb.evictOldestBlock, h.blockIndex]
  cases db.blockIndex.first? with
  | none => exact Option.Rel.some ⟨h, rfl⟩
  | some e =>
      have hremoved :=
        ((h.forgetHeight e.1).forgetHash e.2.blockHash).removeRecord e.2
      dsimp only
      generalize HashTableDb.removeRecord _ e.2 = r at hremoved ⊢
      generalize HashTableDb.removeRecord _ e.2 = r' at hremoved ⊢
      cases hremoved with
      | none => exact Option.Rel.none
      | some hdb => exact Option.Rel.some ⟨hdb, rfl⟩

/-- Both evictions remove the same blocks. -/
theorem evictToTarget {db db' : HashTableDb} (h : SameContents db db') :
    Option.Rel SameContents db.evictToTarget db'.evictToTarget := by
  by_cases hover : db.numEntries > targetSize
  · have hover' : db'.numEntries > targetSize := by
      rw [h.numEntries]
      exact hover
    rw [evictToTarget_of_gt hover, evictToTarget_of_gt hover']
    have hround := h.evictOldestBlock
    cases hevict : db.evictOldestBlock with
    | none =>
        rw [hevict] at hround
        generalize db'.evictOldestBlock = r' at hround
        cases hround
        exact Option.Rel.none
    | some r =>
        rw [hevict] at hround
        generalize db'.evictOldestBlock = r' at hround
        cases hround with
        | @some _ q hsame =>
            rcases r with ⟨mid, height⟩
            rcases q with ⟨mid', height'⟩
            rcases hsame with ⟨hmid, hheight⟩
            change height' = height at hheight
            rw [hheight]
            cases height with
            | none => exact Option.Rel.some hmid
            | some height =>
                have hshrink := evictOldestBlock_size_lt hevict
                exact evictToTarget hmid
  · have hunder : db.numEntries ≤ targetSize := Nat.le_of_not_lt hover
    rw [evictToTarget_of_le hunder, evictToTarget_of_le (h.numEntries.trans_le hunder)]
    exact Option.Rel.some h
termination_by db.blockIndex.size

theorem call (h : SameContents db db') (c : TableCall) :
    Agree (db.call c) (db'.call c) := by
  cases c with
  | insertBlock height blockHash nullifiers =>
      rcases h.insertBlock height.toNat blockHash nullifiers with ⟨hdb, hresult⟩
      exact Option.Rel.some ⟨hdb, congrArg TableReply.result hresult⟩
  | rollbackBlock blockHash =>
      have hrel := h.rollbackBlock blockHash
      rw [HashTableDb.call, HashTableDb.call]
      generalize db.rollbackBlock blockHash = r at hrel
      generalize db'.rollbackBlock blockHash = r' at hrel
      cases hrel with
      | none => exact Option.Rel.none
      | some hsame =>
          exact Option.Rel.some ⟨hsame.left, congrArg TableReply.result hsame.right⟩
  | evictOldestBlock =>
      have hrel := h.evictOldestBlock
      rw [HashTableDb.call, HashTableDb.call]
      generalize db.evictOldestBlock = r at hrel
      generalize db'.evictOldestBlock = r' at hrel
      cases hrel with
      | none => exact Option.Rel.none
      | some hsame =>
          exact Option.Rel.some ⟨hsame.left, congrArg TableReply.evicted hsame.right⟩
  | evictToTarget =>
      have hrel := h.evictToTarget
      rw [HashTableDb.call, HashTableDb.call]
      generalize db.evictToTarget = r at hrel
      generalize db'.evictToTarget = r' at hrel
      cases hrel with
      | none => exact Option.Rel.none
      | some hsame => exact Option.Rel.some ⟨hsame, rfl⟩
  | toPirBytes => exact Option.Rel.some ⟨h, congrArg TableReply.bytes h.toPirBytes⟩

theorem replies_eq (h : SameContents db db') (calls : List TableCall) :
    db'.replies calls = db.replies calls := by
  induction calls generalizing db db' with
  | nil => rfl
  | cons first rest ih =>
      have hrel := h.call first
      rw [replies, replies]
      generalize db.call first = r at hrel
      generalize db'.call first = r' at hrel
      cases hrel with
      | none => rfl
      | @some p q hsame =>
          rcases p with ⟨mid, reply⟩
          rcases q with ⟨mid', reply'⟩
          have hreply : reply' = reply := hsame.right
          dsimp only
          rw [ih hsame.left, hreply]

end SameContents

/-!
## The round trip
-/

theorem RepInvariant.consistent {db : HashTableDb} (h : RepInvariant db)
    (hheights : forall height record,
      db.blockIndex.find? height = some record -> height < 2 ^ 64) : Consistent db :=
  { owned := h.owned
    count := h.count
    hashes := h.inverse
    heights := hheights }

theorem length_entries_recordBytes (entries : List (Nat × BlockRecord)) :
    (entries.flatMap recordBytes).length =
      44 * entries.length + 6 * (entries.flatMap (fun e => e.2.slots)).length := by
  induction entries with
  | nil => rfl
  | cons e rest ih =>
      have hslots : (e.2.slots.flatMap slotBytes).length = e.2.slots.length * 6 :=
        length_flatMap_const (fun slot => by
          rw [slotBytes, List.length_append, length_leBytes]
          rfl) e.2.slots
      have hhash : e.2.blockHash.toList.length = 32 := e.2.blockHash.toList_length
      rw [List.flatMap_cons, List.flatMap_cons, List.length_append, List.length_append, ih,
        recordBytes, List.length_append, List.length_append, List.length_append,
        length_leBytes, length_leBytes, hslots, hhash, List.length_cons]
      lia

theorem Consistent.toSnapshot_isSome {db : HashTableDb} (hcons : Consistent db)
    (hblocks : db.blockIndex.size < 2 ^ 32) (xxh64 : List UInt8 -> Nat -> UInt64) :
    exists data, db.toSnapshot xxh64 = some data := by
  have hmax : maxVecLen = 2 ^ 63 - 1 := rfl
  have hentries := hcons.numEntries_le
  have hslots := hcons.count
  have hsize : numBuckets * bucketCapacity < 2 ^ 32 := by decide
  have hdb : dbBytes < 2 ^ 32 := by decide
  have hlength : (db.snapshotBytes xxh64).length ≤ maxVecLen := by
    rw [snapshotBytes, payloadBytes, List.length_append, List.length_append,
      List.length_append, length_headerBytes, length_toPirBytes, length_leBytes,
      length_entries_recordBytes]
    change db.blockIndex.entries.length < 2 ^ 32 at hblocks
    change db.numEntries = (db.blockIndex.entries.flatMap (fun e => e.2.slots)).length
      at hslots
    lia
  exact ⟨_, if_pos hlength⟩

/-- The snapshot of a consistent table restores a table of the same contents, which no
sequence of calls can tell from the saved one. -/
theorem snapshot_preserves_contents {xxh64 : List UInt8 -> Nat -> UInt64}
    {db : HashTableDb} {data : List UInt8} (hcons : Consistent db)
    (hsave : db.toSnapshot xxh64 = some data) :
    exists db', fromSnapshot xxh64 data = .ok db' ∧ SameContents db db' ∧
      forall calls, db'.replies calls = db.replies calls :=
  ⟨db.recounted, fromSnapshot_toSnapshot hcons hsave, sameContents_recounted db,
    (sameContents_recounted db).replies_eq⟩

/-- The table of one block, saved, restored and rolled back. -/
theorem snapshot_preserves_contents_oneBlock :
    exists data db',
      (new.insertBlock 7 (ByteVec.zeros 32) [oneNullifier]).1.toSnapshot (fun _ _ => 0) =
        some data ∧
      fromSnapshot (fun _ _ => 0) data = .ok db' ∧
      db'.replies [.rollbackBlock (ByteVec.zeros 32), .toPirBytes] =
        (new.insertBlock 7 (ByteVec.zeros 32) [oneNullifier]).1.replies
          [.rollbackBlock (ByteVec.zeros 32), .toPirBytes] := by
  have hinsert : new.insertBlock 7 (ByteVec.zeros 32) [oneNullifier] =
      ((new.insertBlock 7 (ByteVec.zeros 32) [oneNullifier]).1, .ok ()) := rfl
  have hnonzero : forall nwm, nwm ∈ [oneNullifier] ->
      nwm.nullifier ≠ ByteVec.zeros 32 := by decide
  have hrep := represents_insertBlock represents_new (by decide) rfl rfl hnonzero hinsert
  have hblocks :
      (new.insertBlock 7 (ByteVec.zeros 32) [oneNullifier]).1.blockIndex.size < 2 ^ 32 :=
    by decide
  rcases hrep.consistent.toSnapshot_isSome hblocks (fun _ _ => 0) with ⟨data, hsave⟩
  rcases snapshot_preserves_contents hrep.consistent hsave with ⟨db', hrestore, _, hsame⟩
  exact ⟨data, db', hsave, hrestore, hsame _⟩

end HashTableDb
end Nullifier
end SpendabilityPir
