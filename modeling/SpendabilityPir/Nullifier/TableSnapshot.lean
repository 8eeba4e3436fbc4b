import Mathlib.Data.Finset.Prod
import SpendabilityPir.Foundation.Outcome
import SpendabilityPir.Nullifier.TableRefinement

/-!
# Table snapshots

The version 2 snapshot: a header, the block index in height order, the bucket
bytes, and a checksum over everything before it.  The checksum function is a
parameter.  High-water marks are not stored; a restored table recomputes them.
-/

namespace SpendabilityPir
namespace Nullifier

open Foundation

namespace HashTableDb

def snapshotMagic : Nat := 0x5350454E44504952
def snapshotVersion : Nat := 2

def maxVecLen : Nat := 2 ^ 63 - 1

def slotBytes (slot : Nat × Nat) : List UInt8 :=
  leBytes 4 slot.1 ++ [UInt8.ofNat slot.2, 0]

def recordBytes (e : Nat × BlockRecord) : List UInt8 :=
  leBytes 8 e.1 ++ (e.2.blockHash.toList ++
    (leBytes 4 e.2.slots.length ++ e.2.slots.flatMap slotBytes))

def headerBytes (db : HashTableDb) : List UInt8 :=
  leBytes 8 snapshotMagic ++ (leBytes 4 snapshotVersion ++
    (leBytes 8 (db.latestHeight.getD 0) ++ (leBytes 8 (db.latestHeight.getD 0) ++
      ((db.latestBlockHash.getD (ByteVec.zeros 32)).toList ++
        (leBytes 8 db.numEntries ++ leBytes 8 db.blockIndex.size)))))

def payloadBytes (db : HashTableDb) : List UInt8 :=
  db.headerBytes ++ (db.blockIndex.entries.flatMap recordBytes ++ db.toPirBytes)

section Checksum

variable (xxh64 : List UInt8 -> Nat -> UInt64)

def snapshotBytes (db : HashTableDb) : List UInt8 :=
  db.payloadBytes ++ leBytes 8 (xxh64 db.payloadBytes 0).toNat

/-- The snapshot of a table; building a vector past the allocation limit panics. -/
def toSnapshot (db : HashTableDb) : Option (List UInt8) :=
  if (db.snapshotBytes xxh64).length ≤ maxVecLen then some (db.snapshotBytes xxh64)
  else none

end Checksum

/-!
## Reading
-/

def readBytes (n : Nat) (payload : List UInt8) (pos : Nat) :
    Except HashTableError (ByteVec n × Nat) :=
  match bytesAt? n payload pos with
  | none => .error (.snapshot "unexpected EOF")
  | some bytes => .ok (bytes, pos + n)

def readUInt (n : Nat) (payload : List UInt8) (pos : Nat) :
    Except HashTableError (Nat × Nat) := do
  let (bytes, pos) <- readBytes n payload pos
  return (leNat bytes.toList, pos)

def readU64 : List UInt8 -> Nat -> Except HashTableError (Nat × Nat) := readUInt 8
def readU32 : List UInt8 -> Nat -> Except HashTableError (Nat × Nat) := readUInt 4

def readBytes32 : List UInt8 -> Nat -> Except HashTableError (ByteVec 32 × Nat) :=
  readBytes 32

def readSlotIdx (payload : List UInt8) (pos : Nat) :
    Except HashTableError (Nat × Nat) := do
  let (bytes, pos) <- readBytes 2 payload pos
  return (bytes.head.toNat, pos)

def readSlots (payload : List UInt8) :
    Nat -> Nat -> List (Nat × Nat) -> Except HashTableError (List (Nat × Nat) × Nat)
  | 0, pos, slots => return (slots, pos)
  | n + 1, pos, slots => do
      let (bucketIdx, pos) <- readU32 payload pos
      let (slotIdx, pos) <- readSlotIdx payload pos
      readSlots payload n pos (slots ++ [(bucketIdx, slotIdx)])

structure BlockIndices where
  blockIndex : OrderedMap Nat BlockRecord
  blockHashToHeight : ByteVec 32 -> Option Nat

namespace BlockIndices

def empty : BlockIndices :=
  { blockIndex := OrderedMap.empty, blockHashToHeight := fun _ => none }

def add (indices : BlockIndices) (e : Nat × BlockRecord) : BlockIndices :=
  { blockIndex := indices.blockIndex.insert e.1 e.2
    blockHashToHeight :=
      Function.update indices.blockHashToHeight e.2.blockHash (some e.1) }

end BlockIndices

def readBlocks (payload : List UInt8) :
    Nat -> Nat -> BlockIndices -> Except HashTableError (BlockIndices × Nat)
  | 0, pos, indices => return (indices, pos)
  | n + 1, pos, indices => do
      let (height, pos) <- readU64 payload pos
      let (blockHash, pos) <- readBytes32 payload pos
      let (numSlots, pos) <- readU32 payload pos
      let (slots, pos) <- readSlots payload numSlots pos []
      readBlocks payload n pos
        (indices.add (height, { blockHash := blockHash, slots := slots }))

def highWaterMark (entries : Fin bucketCapacity -> NullifierEntry) : Nat :=
  match (List.finRange bucketCapacity).reverse.find?
      (fun j => ! (entries j).isEmpty) with
  | some j => j.val + 1
  | none => 0

def readBucket (payload : List UInt8) (offset : Nat) : Bucket :=
  let entries : Fin bucketCapacity -> NullifierEntry := fun j =>
    NullifierEntry.fromBytes
      (ByteVec.ofBytes entryBytes (slice payload (offset + j.val * entryBytes) entryBytes))
  { entries := entries, count := highWaterMark entries }

def minSnapshotSize : Nat :=
  8 + 4 + 8 + 8 + 32 + 8 + 8 + numBuckets * bucketBytes + 8

/-- The header fields a restore uses: the entry count and the block count. -/
def readHeader (payload : List UInt8) (pos : Nat) :
    Except HashTableError ((Nat × Nat) × Nat) := do
  let (magic, pos) <- readU64 payload pos
  if magic ≠ snapshotMagic then
    .error (.snapshot "bad magic")
  else
    let (version, pos) <- readU32 payload pos
    if version ≠ snapshotVersion then
      .error (.snapshot ("unsupported snapshot version " ++ toString version ++
        " (expected " ++ toString snapshotVersion ++ ")"))
    else
      let (_, pos) <- readU64 payload pos
      let (_, pos) <- readU64 payload pos
      let (_, pos) <- readBytes32 payload pos
      let (numEntries, pos) <- readU64 payload pos
      let (numBlocks, pos) <- readU64 payload pos
      return ((numEntries, numBlocks), pos)

/-- The bucket data, which has to be there in full. -/
def readBuckets (payload : List UInt8) (pos : Nat) :
    Except HashTableError (Fin numBuckets -> Bucket) :=
  if pos + numBuckets * bucketBytes > payload.length then
    .error (.snapshot "bucket data truncated")
  else .ok (fun i => readBucket payload (pos + i.val * bucketBytes))

/-- The part of `fromSnapshot` after the checksum has been verified. -/
def fromPayload (payload : List UInt8) : Except HashTableError HashTableDb := do
  let ((numEntries, numBlocks), pos) <- readHeader payload 0
  let (indices, pos) <- readBlocks payload numBlocks pos BlockIndices.empty
  let buckets <- readBuckets payload pos
  return {
    buckets := buckets
    blockIndex := indices.blockIndex
    blockHashToHeight := indices.blockHashToHeight
    numEntries := numEntries }

def fromSnapshot (xxh64 : List UInt8 -> Nat -> UInt64) (data : List UInt8) :
    Except HashTableError HashTableDb :=
  if data.length < minSnapshotSize then
    .error (.snapshot "data too short")
  else
    let payload := data.take (data.length - 8)
    let storedChecksum := leNat (slice data (data.length - 8) 8)
    if storedChecksum ≠ (xxh64 payload 0).toNat then
      .error (.snapshot "checksum mismatch")
    else fromPayload payload

def recounted (db : HashTableDb) : HashTableDb :=
  { db with
    buckets := fun b =>
      { entries := (db.buckets b).entries
        count := highWaterMark (db.buckets b).entries } }

/-!
## Reading back what was written
-/

theorem readBytes_of_drop_eq {n : Nat} {payload front rest : List UInt8} {pos : Nat}
    (h : payload.drop pos = front ++ rest) (hn : front.length = n) :
    readBytes n payload pos = .ok (⟨front, hn⟩, pos + n) := by
  rw [readBytes, bytesAt?_of_drop_eq h hn]

theorem readUInt_of_drop_eq {n x : Nat} {payload rest : List UInt8} {pos : Nat}
    (h : payload.drop pos = leBytes n x ++ rest) (hx : x < 256 ^ n) :
    readUInt n payload pos = .ok (x, pos + n) := by
  rw [readUInt, readBytes_of_drop_eq h (length_leBytes n x)]
  show Except.ok (leNat (leBytes n x), pos + n) = _
  rw [leNat_leBytes hx]

theorem readSlotIdx_of_drop_eq {x : Nat} {payload rest : List UInt8} {pos : Nat}
    (h : payload.drop pos = [UInt8.ofNat x, 0] ++ rest) (hx : x < 256) :
    readSlotIdx payload pos = .ok (x, pos + 2) := by
  have hread : readBytes 2 payload pos = .ok (⟨[UInt8.ofNat x, 0], rfl⟩, pos + 2) :=
    readBytes_of_drop_eq h rfl
  have hback : (UInt8.ofNat x).toNat = x := UInt8.toNat_ofNat_of_lt' hx
  rw [readSlotIdx, hread]
  show Except.ok ((UInt8.ofNat x).toNat, pos + 2) = _
  rw [hback]

theorem readSlots_of_drop_eq {payload rest : List UInt8} {pos : Nat}
    {slots : List (Nat × Nat)} (acc : List (Nat × Nat))
    (h : payload.drop pos = slots.flatMap slotBytes ++ rest)
    (hslots : forall slot, slot ∈ slots -> slot.1 < 2 ^ 32 ∧ slot.2 < 2 ^ 8) :
    exists pos', readSlots payload slots.length pos acc = .ok (acc ++ slots, pos') ∧
      payload.drop pos' = rest := by
  induction slots generalizing pos acc with
  | nil =>
      refine ⟨pos, ?_, h⟩
      rw [List.append_nil]
      rfl
  | cons slot more ih =>
      have hslot := hslots slot List.mem_cons_self
      have hmore := fun s hs => hslots s (List.mem_cons_of_mem slot hs)
      have hbucket : slot.1 < 256 ^ 4 := hslot.left
      have hidx : slot.2 < 256 := hslot.right
      rw [List.flatMap_cons, slotBytes, List.append_assoc, List.append_assoc] at h
      have hread := readUInt_of_drop_eq h hbucket
      have hnext := drop_add_of_drop_eq h (length_leBytes 4 slot.1)
      have hreadIdx := readSlotIdx_of_drop_eq hnext hidx
      have hlast := drop_add_of_drop_eq hnext rfl
      rcases ih (acc ++ [slot]) hlast hmore with ⟨pos', hrec, hdrop⟩
      refine ⟨pos', ?_, hdrop⟩
      rw [List.length_cons, readSlots, readU32, hread]
      show (readSlotIdx payload (pos + 4) >>= _) = _
      rw [hreadIdx]
      show readSlots payload more.length (pos + 4 + 2) (acc ++ [slot]) = _
      have hcomm : acc ++ [slot] ++ more = acc ++ slot :: more := by
        rw [List.append_assoc]
        rfl
      rw [← hcomm]
      exact hrec

theorem readBlocks_of_drop_eq {payload rest : List UInt8} {pos : Nat}
    {entries : List (Nat × BlockRecord)} (indices : BlockIndices)
    (h : payload.drop pos = entries.flatMap recordBytes ++ rest)
    (hheights : forall e, e ∈ entries -> e.1 < 2 ^ 64)
    (hlengths : forall e, e ∈ entries -> e.2.slots.length < 2 ^ 32)
    (hslots : forall e, e ∈ entries -> forall slot, slot ∈ e.2.slots ->
      slot.1 < 2 ^ 32 ∧ slot.2 < 2 ^ 8) :
    exists pos',
      readBlocks payload entries.length pos indices =
        .ok (entries.foldl BlockIndices.add indices, pos') ∧
      payload.drop pos' = rest := by
  induction entries generalizing pos indices with
  | nil => exact ⟨pos, rfl, h⟩
  | cons e more ih =>
      have hheight : e.1 < 256 ^ 8 := hheights e List.mem_cons_self
      have hlength : e.2.slots.length < 256 ^ 4 := hlengths e List.mem_cons_self
      have hrecord : recordBytes e ++ (more.flatMap recordBytes ++ rest) =
          leBytes 8 e.1 ++ (e.2.blockHash.toList ++ (leBytes 4 e.2.slots.length ++
            (e.2.slots.flatMap slotBytes ++ (more.flatMap recordBytes ++ rest)))) := by
        simp only [recordBytes, List.append_assoc]
      rw [List.flatMap_cons, List.append_assoc, hrecord] at h
      have hreadHeight := readUInt_of_drop_eq h hheight
      have hafterHeight := drop_add_of_drop_eq h (length_leBytes 8 e.1)
      have hhashLength : e.2.blockHash.toList.length = 32 :=
        e.2.blockHash.toList_length
      have hreadHash := readBytes_of_drop_eq hafterHeight hhashLength
      have hafterHash := drop_add_of_drop_eq hafterHeight hhashLength
      have hreadLength := readUInt_of_drop_eq hafterHash hlength
      have hafterLength := drop_add_of_drop_eq hafterHash
        (length_leBytes 4 e.2.slots.length)
      rcases readSlots_of_drop_eq [] hafterLength
          (hslots e List.mem_cons_self) with ⟨posSlots, hreadSlots, hafterSlots⟩
      rcases ih (indices.add e) hafterSlots
          (fun a ha => hheights a (List.mem_cons_of_mem e ha))
          (fun a ha => hlengths a (List.mem_cons_of_mem e ha))
          (fun a ha => hslots a (List.mem_cons_of_mem e ha)) with
        ⟨pos', hmore, hrest⟩
      refine ⟨pos', ?_, hrest⟩
      rw [List.length_cons, readBlocks, readU64, hreadHeight]
      show (readBytes32 payload (pos + 8) >>= _) = _
      rw [readBytes32, hreadHash]
      show (readU32 payload (pos + 8 + 32) >>= _) = _
      rw [readU32, hreadLength]
      show (readSlots payload e.2.slots.length (pos + 8 + 32 + 4) [] >>= _) = _
      rw [hreadSlots]
      exact hmore

/-!
## Restoring the indices
-/

theorem entries_add_of_lt {indices : BlockIndices} {e : Nat × BlockRecord}
    {rest : List (Nat × BlockRecord)}
    (h : (indices.blockIndex.entries ++ e :: rest).Pairwise (fun a b => a.1 < b.1)) :
    (indices.add e).blockIndex.entries = indices.blockIndex.entries ++ [e] := by
  apply OrderedMap.insert_entries_of_lt
  intro a ha
  have hcross := (List.pairwise_append.mp h).right.right
  exact hcross a ha e List.mem_cons_self

theorem foldl_add_blockIndex {entries : List (Nat × BlockRecord)}
    {indices : BlockIndices}
    (h : (indices.blockIndex.entries ++ entries).Pairwise (fun a b => a.1 < b.1)) :
    (entries.foldl BlockIndices.add indices).blockIndex.entries =
      indices.blockIndex.entries ++ entries := by
  induction entries generalizing indices with
  | nil => rw [List.append_nil]; rfl
  | cons e rest ih =>
      have hassoc : indices.blockIndex.entries ++ e :: rest =
          (indices.add e).blockIndex.entries ++ rest := by
        rw [entries_add_of_lt h, List.append_assoc]
        rfl
      rw [hassoc] at h
      rw [List.foldl_cons, ih h, hassoc]

theorem foldl_add_of_distinct {records seen : List (Nat × BlockRecord)}
    {indices : BlockIndices}
    (h : HashIndexed indices.blockHashToHeight indices.blockIndex)
    (hperm : indices.blockIndex.entries.Perm seen)
    (hheights : ((seen ++ records).map Prod.fst).Nodup)
    (hhashes : ((seen ++ records).map (fun e => e.2.blockHash)).Nodup) :
    HashIndexed (records.foldl BlockIndices.add indices).blockHashToHeight
      (records.foldl BlockIndices.add indices).blockIndex ∧
    (records.foldl BlockIndices.add indices).blockIndex.entries.Perm
      (seen ++ records) := by
  induction records generalizing indices seen with
  | nil =>
      rw [List.append_nil]
      exact ⟨h, hperm⟩
  | cons e rest ih =>
      have hassoc : seen ++ e :: rest = (seen ++ [e]) ++ rest := by
        rw [List.append_assoc]
        rfl
      have hmem : e ∈ e :: rest := List.mem_cons_self
      have hfreshHeight : indices.blockIndex.find? e.1 = none := by
        apply OrderedMap.find?_eq_none_iff.mpr
        intro record hrecord
        rw [List.map_append] at hheights
        have hcross := (List.nodup_append.mp hheights).right.right
        have hseen := List.mem_map_of_mem (f := Prod.fst) (hperm.mem_iff.mp hrecord)
        exact hcross _ hseen _ (List.mem_map_of_mem (f := Prod.fst) hmem) rfl
      have hfreshHash : indices.blockHashToHeight e.2.blockHash = none := by
        cases hat : indices.blockHashToHeight e.2.blockHash with
        | none => rfl
        | some height =>
            rcases (h e.2.blockHash height).mp hat with ⟨record, hrecord, hsame⟩
            have hentry := OrderedMap.mem_entries_iff.mpr hrecord
            rw [List.map_append] at hhashes
            have hcross := (List.nodup_append.mp hhashes).right.right
            have hseen := List.mem_map_of_mem
              (f := fun a : Nat × BlockRecord => a.2.blockHash) (hperm.mem_iff.mp hentry)
            exact absurd hsame (hcross _ hseen _
              (List.mem_map_of_mem (f := fun a : Nat × BlockRecord => a.2.blockHash) hmem))
      have hadded : (indices.add e).blockIndex.entries.Perm (seen ++ [e]) := by
        have hinsert := OrderedMap.entries_insert_perm e.2 hfreshHeight
        exact (hinsert.trans (hperm.cons e)).trans (List.perm_append_singleton e seen).symm
      rw [hassoc] at hheights hhashes ⊢
      exact ih (h.insert e.2 hfreshHeight hfreshHash) hadded hheights hhashes

theorem hashIndexed_empty :
    HashIndexed BlockIndices.empty.blockHashToHeight BlockIndices.empty.blockIndex := by
  intro blockHash height
  simp [BlockIndices.empty]

/-- The indices, the counter and the occupied slots of a table agree. -/
structure Consistent (db : HashTableDb) : Prop where
  owned : Owned db.buckets (slotRefs db.blockIndex)
  count : db.numEntries = (slotRefs db.blockIndex).length
  hashes : forall blockHash height,
    db.blockHashToHeight blockHash = some height ↔
      exists record, db.blockIndex.find? height = some record ∧
        record.blockHash = blockHash
  heights : forall height record,
    db.blockIndex.find? height = some record -> height < 2 ^ 64

theorem Represents.consistent {db : HashTableDb} {live : LiveBlocks}
    (hrep : Represents db live) : Consistent db :=
  { owned := hrep.owned
    count := hrep.count
    hashes := hrep.hashes
    heights := hrep.heights }

theorem Consistent.hashes_pairwise {db : HashTableDb}
    (hcons : Consistent db) :
    db.blockIndex.entries.Pairwise (fun a b => a.2.blockHash ≠ b.2.blockHash) := by
  have hindexed : HashIndexed db.blockHashToHeight db.blockIndex := hcons.hashes
  apply db.blockIndex.sorted.imp_of_mem
  intro a b ha hb hlt hsame
  have hfindA : db.blockIndex.find? a.1 = some a.2 := OrderedMap.mem_entries_iff.mp ha
  have hfindB : db.blockIndex.find? b.1 = some b.2 := OrderedMap.mem_entries_iff.mp hb
  exact absurd (hindexed.height_unique hfindB hfindA hsame) (Nat.ne_of_lt hlt)

theorem Consistent.foldl_add_entries {db : HashTableDb}
    (hcons : Consistent db) :
    db.blockIndex.entries.foldl BlockIndices.add BlockIndices.empty =
      { blockIndex := db.blockIndex, blockHashToHeight := db.blockHashToHeight } := by
  have hindex : (db.blockIndex.entries.foldl BlockIndices.add
      BlockIndices.empty).blockIndex = db.blockIndex :=
    OrderedMap.ext (foldl_add_blockIndex db.blockIndex.sorted)
  have hheights : (db.blockIndex.entries.map Prod.fst).Nodup :=
    List.pairwise_map.mpr (db.blockIndex.sorted.imp (fun hlt => Nat.ne_of_lt hlt))
  have hrebuilt := (foldl_add_of_distinct hashIndexed_empty (List.Perm.refl _) hheights
    (List.pairwise_map.mpr hcons.hashes_pairwise)).left
  rw [hindex] at hrebuilt
  have hhash := hrebuilt.unique hcons.hashes
  calc db.blockIndex.entries.foldl BlockIndices.add BlockIndices.empty
      = BlockIndices.mk (db.blockIndex.entries.foldl BlockIndices.add
            BlockIndices.empty).blockIndex
          (db.blockIndex.entries.foldl BlockIndices.add
            BlockIndices.empty).blockHashToHeight := rfl
    _ = BlockIndices.mk db.blockIndex db.blockHashToHeight := by
        rw [hindex, hhash]

/-!
## Bounds on a consistent table
-/

theorem length_le_of_nodup {rows cols : Nat} {slots : List (Nat × Nat)}
    (hnodup : slots.Nodup)
    (hrange : forall slot, slot ∈ slots -> slot.1 < rows ∧ slot.2 < cols) :
    slots.length ≤ rows * cols := by
  have hsubset : slots.toFinset ⊆ Finset.range rows ×ˢ Finset.range cols := by
    intro slot hslot
    have hslotRange := hrange slot (List.mem_toFinset.mp hslot)
    exact Finset.mem_product.mpr
      ⟨Finset.mem_range.mpr hslotRange.left, Finset.mem_range.mpr hslotRange.right⟩
  have hcard := Finset.card_le_card hsubset
  rwa [List.toFinset_card_of_nodup hnodup, Finset.card_product, Finset.card_range,
    Finset.card_range] at hcard

theorem Consistent.numEntries_le {db : HashTableDb}
    (hcons : Consistent db) : db.numEntries ≤ numBuckets * bucketCapacity := by
  rw [hcons.count]
  exact length_le_of_nodup hcons.owned.nodup (fun _ hslot => hcons.owned.inRange hslot)

theorem Consistent.slots_length_le {db : HashTableDb}
    (hcons : Consistent db) {e : Nat × BlockRecord}
    (he : e ∈ db.blockIndex.entries) : e.2.slots.length ≤ db.numEntries := by
  have hfind : db.blockIndex.find? e.1 = some e.2 := OrderedMap.mem_entries_iff.mp he
  have hlength := (slotRefs_perm_erase hfind).length_eq
  rw [List.length_append] at hlength
  rw [hcons.count]
  lia

/-!
## Round trip
-/

theorem length_headerBytes (db : HashTableDb) : db.headerBytes.length = 76 := by
  have hhash : (db.latestBlockHash.getD (ByteVec.zeros 32)).toList.length = 32 :=
    List.Vector.toList_length _
  simp only [headerBytes, List.length_append, length_leBytes, hhash]

theorem length_snapshotBytes (xxh64 : List UInt8 -> Nat -> UInt64) (db : HashTableDb) :
    (db.snapshotBytes xxh64).length =
      76 + ((db.blockIndex.entries.flatMap recordBytes).length +
        numBuckets * bucketBytes) + 8 := by
  rw [snapshotBytes, List.length_append, payloadBytes, List.length_append,
    List.length_append, length_headerBytes, length_toPirBytes, length_leBytes]
  rfl

theorem readBucket_of_drop_eq {db : HashTableDb} {payload : List UInt8} {pos : Nat}
    (h : payload.drop pos = db.toPirBytes) (b : Fin numBuckets) :
    readBucket payload (pos + b.val * bucketBytes) =
      { entries := (db.buckets b).entries
        count := highWaterMark (db.buckets b).entries } := by
  have hentries : (readBucket payload (pos + b.val * bucketBytes)).entries =
      (db.buckets b).entries := by
    funext j
    have hfit : j.val * entryBytes + entryBytes ≤ bucketBytes := by
      have hj : j.val + 1 ≤ bucketCapacity := j.isLt
      have hmul := Nat.mul_le_mul_right entryBytes hj
      rwa [Nat.succ_mul] at hmul
    have hslice :
        slice payload (pos + b.val * bucketBytes + j.val * entryBytes) entryBytes =
          ((db.buckets b).entries j).toBytes.toList := by
      rw [← slice_bucketPirBytes, ← slice_toPirBytes, slice_slice _ hfit, ← h,
        slice, slice, List.drop_drop, Nat.add_assoc]
    show NullifierEntry.fromBytes (ByteVec.ofBytes entryBytes (slice payload
      (pos + b.val * bucketBytes + j.val * entryBytes) entryBytes)) = _
    rw [hslice, ByteVec.ofBytes_toList, NullifierEntry.fromBytes_toBytes]
  show Bucket.mk (readBucket payload (pos + b.val * bucketBytes)).entries
    (highWaterMark (readBucket payload (pos + b.val * bucketBytes)).entries) = _
  rw [hentries]

/-- The numbers of a table fit the fields a snapshot has for them. -/
structure FitsFields (db : HashTableDb) : Prop where
  heights : forall e, e ∈ db.blockIndex.entries -> e.1 < 2 ^ 64
  lengths : forall e, e ∈ db.blockIndex.entries -> e.2.slots.length < 2 ^ 32
  slots : forall e, e ∈ db.blockIndex.entries -> forall slot, slot ∈ e.2.slots ->
    slot.1 < 2 ^ 32 ∧ slot.2 < 2 ^ 8
  count : db.numEntries < 2 ^ 64
  blocks : db.blockIndex.size < 2 ^ 64

theorem Consistent.fitsFields {db : HashTableDb} (hcons : Consistent db)
    (hblocks : db.blockIndex.size < 2 ^ 64) : db.FitsFields := by
  have hentry : forall e, e ∈ db.blockIndex.entries ->
      db.blockIndex.find? e.1 = some e.2 :=
    fun e he => OrderedMap.mem_entries_iff.mp he
  constructor
  · intro e he
    exact hcons.heights e.1 e.2 (hentry e he)
  · intro e he
    have hle := Nat.le_trans (hcons.slots_length_le he) hcons.numEntries_le
    exact Nat.lt_of_le_of_lt hle (by decide)
  · intro e he slot hslot
    have hrange := hcons.owned.inRange (mem_slotRefs.mpr ⟨e.1, e.2, hentry e he, hslot⟩)
    exact ⟨Nat.lt_trans hrange.left (by decide), Nat.lt_trans hrange.right (by decide)⟩
  · exact Nat.lt_of_le_of_lt hcons.numEntries_le (by decide)
  · exact hblocks

theorem FitsFields.latestHeight_lt {db : HashTableDb} (h : db.FitsFields) :
    db.latestHeight.getD 0 < 2 ^ 64 := by
  unfold latestHeight
  cases hlast : db.blockIndex.last? with
  | none => decide
  | some e => exact h.heights e (List.mem_of_getLast? hlast)

theorem readHeader_of_drop_eq {db : HashTableDb} (hfits : db.FitsFields)
    {payload rest : List UInt8} {pos : Nat}
    (h : payload.drop pos = db.headerBytes ++ rest) :
    exists pos',
      readHeader payload pos = .ok ((db.numEntries, db.blockIndex.size), pos') ∧
      payload.drop pos' = rest := by
  have hmagic : snapshotMagic < 256 ^ 8 := by decide
  have hversion : snapshotVersion < 256 ^ 4 := by decide
  have hlatest : db.latestHeight.getD 0 < 256 ^ 8 := hfits.latestHeight_lt
  have hcount : db.numEntries < 256 ^ 8 := hfits.count
  have hhash : (db.latestBlockHash.getD (ByteVec.zeros 32)).toList.length = 32 :=
    List.Vector.toList_length _
  simp only [headerBytes, List.append_assoc] at h
  have hdrop1 := drop_add_of_drop_eq h (length_leBytes 8 _)
  have hdrop2 := drop_add_of_drop_eq hdrop1 (length_leBytes 4 _)
  have hdrop3 := drop_add_of_drop_eq hdrop2 (length_leBytes 8 _)
  have hdrop4 := drop_add_of_drop_eq hdrop3 (length_leBytes 8 _)
  have hdrop5 := drop_add_of_drop_eq hdrop4 hhash
  have hdrop6 := drop_add_of_drop_eq hdrop5 (length_leBytes 8 _)
  have hdrop7 := drop_add_of_drop_eq hdrop6 (length_leBytes 8 _)
  refine ⟨_, ?_, hdrop7⟩
  simp only [readHeader, readU64, readU32, readBytes32,
    readUInt_of_drop_eq h hmagic, readUInt_of_drop_eq hdrop1 hversion,
    readUInt_of_drop_eq hdrop2 hlatest, readUInt_of_drop_eq hdrop3 hlatest,
    readBytes_of_drop_eq hdrop4 hhash, readUInt_of_drop_eq hdrop5 hcount,
    readUInt_of_drop_eq hdrop6 hfits.blocks, ok_bind, ne_eq, not_true_eq_false, if_false]
  rfl

theorem readBuckets_of_drop_eq {db : HashTableDb} {payload : List UInt8} {pos : Nat}
    (h : payload.drop pos = db.toPirBytes) :
    readBuckets payload pos = .ok db.recounted.buckets := by
  have hroom : ¬ pos + numBuckets * bucketBytes > payload.length := by
    have hlength := congrArg List.length h
    rw [length_toPirBytes, List.length_drop] at hlength
    have hpositive : 0 < dbBytes := by decide
    have hdbBytes : numBuckets * bucketBytes = dbBytes := rfl
    rw [hdbBytes]
    lia
  rw [readBuckets, if_neg hroom]
  exact congrArg Except.ok (funext (readBucket_of_drop_eq h))

/-- Reading the payload of a table gives its records and counter, its entries with the
high-water marks recomputed, and the hash index of its records. -/
theorem fromPayload_payloadBytes {db : HashTableDb} (hfits : db.FitsFields) :
    fromPayload db.payloadBytes =
      .ok { db.recounted with
            blockHashToHeight :=
              (db.blockIndex.entries.foldl BlockIndices.add
                BlockIndices.empty).blockHashToHeight } := by
  have hstart : db.payloadBytes.drop 0 = db.payloadBytes := rfl
  rcases readHeader_of_drop_eq hfits hstart with ⟨posHeader, hheader, hindex⟩
  rcases readBlocks_of_drop_eq BlockIndices.empty hindex hfits.heights hfits.lengths
      hfits.slots with ⟨pos, hblocksRead, hpir⟩
  have hrebuilt : (db.blockIndex.entries.foldl BlockIndices.add
      BlockIndices.empty).blockIndex = db.blockIndex :=
    OrderedMap.ext (foldl_add_blockIndex db.blockIndex.sorted)
  rw [OrderedMap.size] at hheader
  rw [fromPayload, hheader, ok_bind]
  dsimp only
  rw [hblocksRead, ok_bind, readBuckets_of_drop_eq hpir, ok_bind, hrebuilt]
  rfl

theorem fromSnapshot_snapshotBytes (xxh64 : List UInt8 -> Nat -> UInt64)
    (db : HashTableDb) :
    fromSnapshot xxh64 (db.snapshotBytes xxh64) = fromPayload db.payloadBytes := by
  have hcut : (db.snapshotBytes xxh64).length - 8 = db.payloadBytes.length := by
    rw [snapshotBytes, List.length_append, length_leBytes, Nat.add_sub_cancel]
  have hpayload : (db.snapshotBytes xxh64).take
      ((db.snapshotBytes xxh64).length - 8) = db.payloadBytes := by
    rw [hcut, snapshotBytes, List.take_left]
  have hchecksum : leNat (slice (db.snapshotBytes xxh64)
      ((db.snapshotBytes xxh64).length - 8) 8) =
        (xxh64 db.payloadBytes 0).toNat := by
    have htail : slice (db.snapshotBytes xxh64) db.payloadBytes.length 8 =
        leBytes 8 (xxh64 db.payloadBytes 0).toNat := by
      rw [slice, snapshotBytes, List.drop_left]
      exact List.take_of_length_le (Nat.le_of_eq (length_leBytes 8 _))
    rw [hcut, htail]
    exact leNat_leBytes (xxh64 db.payloadBytes 0).toNat_lt
  have hlong : ¬ (db.snapshotBytes xxh64).length < minSnapshotSize := by
    rw [length_snapshotBytes, minSnapshotSize]
    lia
  unfold fromSnapshot
  rw [if_neg hlong]
  simp only [hpayload, hchecksum, ne_eq, not_true_eq_false, if_false]

theorem size_le_length_recordBytes (index : OrderedMap Nat BlockRecord) :
    index.size ≤ (index.entries.flatMap recordBytes).length := by
  have hone : forall n,
      n ∈ index.entries.map (fun e => (recordBytes e).length) -> 1 ≤ n := by
    intro n hn
    rcases List.mem_map.mp hn with ⟨e, _, he⟩
    rw [← he, recordBytes, List.length_append, length_leBytes]
    lia
  have hsum := List.length_le_sum_of_one_le _ hone
  rwa [List.length_map, ← List.length_flatMap] at hsum

/-- Restoring a snapshot gives back the table it was taken of, with its high-water
marks recomputed. -/
theorem fromSnapshot_toSnapshot {xxh64 : List UInt8 -> Nat -> UInt64}
    {db : HashTableDb} {data : List UInt8}
    (hcons : Consistent db) (h : db.toSnapshot xxh64 = some data) :
    fromSnapshot xxh64 data = .ok db.recounted := by
  unfold toSnapshot at h
  split at h
  · next hfits =>
      cases h
      have hblocks : db.blockIndex.size < 2 ^ 64 := by
        have hmax : maxVecLen < 2 ^ 64 := by decide
        have hrecords := size_le_length_recordBytes db.blockIndex
        rw [length_snapshotBytes] at hfits
        lia
      rw [fromSnapshot_snapshotBytes, fromPayload_payloadBytes (hcons.fitsFields hblocks),
        hcons.foldl_add_entries]
      rfl
  · cases h

theorem represents_recounted {db : HashTableDb} {live : LiveBlocks}
    (hrep : Represents db live) : Represents db.recounted live := by
  have hentry : forall slot,
      entryAt db.recounted.buckets slot = entryAt db.buckets slot := by
    intro slot
    rfl
  constructor
  · intro height
    apply rel_of_find? (hrep.find?_none_iff height).mp
    intro record hrecord
    rcases hrep.holds hrecord with ⟨block, hblock, hholds⟩
    exact ⟨block, hblock, hholds.frame (fun slot _ => hentry slot)⟩
  · constructor
    · exact hrep.owned.nodup
    · intro slot
      rw [hentry slot]
      exact hrep.owned.occupied slot
  · exact hrep.count
  · exact hrep.total
  · exact hrep.hashes
  · exact hrep.heights

end HashTableDb
end Nullifier
end SpendabilityPir
