import SpendabilityPir.Nullifier.TableRoundTrip
import SpendabilityPir.Nullifier.TableSafety

/-!
# Tables a snapshot decoder accepts

The decoder takes the entry counter from the header, the slot lists from the block
section and the entries from the bucket section, and compares none of them.  What the
three sections say is read off the bytes here; an accepted table is valid exactly when
they agree.
-/

namespace SpendabilityPir
namespace Nullifier

open Foundation

namespace HashTableDb

/-!
## The sections of a payload
-/

section Sections

variable (payload : List UInt8)

def uintAt (n pos : Nat) : Nat := leNat (slice payload pos n)

def slotAt (pos : Nat) : Nat × Nat := (uintAt payload 4 pos, uintAt payload 1 (pos + 4))

/-- The slots listed from a position on, six bytes each. -/
def slotsAt : Nat -> Nat -> List (Nat × Nat)
  | _, 0 => []
  | pos, n + 1 => slotAt payload pos :: slotsAt (pos + 6) n

def slotCountAt (pos : Nat) : Nat := uintAt payload 4 (pos + 8 + 32)

/-- The height and the record of a block at a position. -/
def recordAt (pos : Nat) : Nat × BlockRecord :=
  (uintAt payload 8 pos,
   { blockHash := ByteVec.ofBytes 32 (slice payload (pos + 8) 32)
     slots := slotsAt payload (pos + 8 + 32 + 4) (slotCountAt payload pos) })

def recordEnd (pos : Nat) : Nat := pos + 8 + 32 + 4 + 6 * slotCountAt payload pos

def recordsAt : Nat -> Nat -> List (Nat × BlockRecord)
  | _, 0 => []
  | pos, n + 1 => recordAt payload pos :: recordsAt (recordEnd payload pos) n

def recordsEnd : Nat -> Nat -> Nat
  | pos, 0 => pos
  | pos, n + 1 => recordsEnd (recordEnd payload pos) n

def declaredEntries : Nat := uintAt payload 8 60
def declaredBlocks : Nat := uintAt payload 8 68

/-- The records of the block section, in the order of the file. -/
def blockSection : List (Nat × BlockRecord) :=
  recordsAt payload 76 (declaredBlocks payload)

def listedSlots : List (Nat × Nat) := (blockSection payload).flatMap (fun e => e.2.slots)

def bucketStart : Nat := recordsEnd payload 76 (declaredBlocks payload)

def storedNullifier (slot : Nat × Nat) : ByteVec 32 :=
  ByteVec.ofBytes 32 (slice payload
    (bucketStart payload + slot.1 * bucketBytes + slot.2 * entryBytes) 32)

/-- No two records of the block section have a height or a hash in common. -/
structure DistinctBlocks : Prop where
  heights : ((blockSection payload).map Prod.fst).Nodup
  hashes : ((blockSection payload).map (fun e => e.2.blockHash)).Nodup

/-- The records list every slot that the bucket section fills once, and nothing else, and
the header counts them. -/
structure SectionsAgree : Prop where
  blocks : DistinctBlocks payload
  slots : (listedSlots payload).Nodup
  stored : forall slot, slot ∈ listedSlots payload ↔
    (slot.1 < numBuckets ∧ slot.2 < bucketCapacity) ∧
      storedNullifier payload slot ≠ ByteVec.zeros 32
  entries : declaredEntries payload = (listedSlots payload).length

end Sections

def payloadOf (data : List UInt8) : List UInt8 := data.take (data.length - 8)

/-!
## What the readers return
-/

theorem readBytes_eq_ok {n : Nat} {payload : List UInt8} {pos pos' : Nat}
    {bytes : ByteVec n} (h : readBytes n payload pos = .ok (bytes, pos')) :
    bytes.toList = slice payload pos n ∧ pos' = pos + n := by
  unfold readBytes at h
  split at h
  · cases h
  · next found hfound =>
      cases h
      exact ⟨toList_of_bytesAt? hfound, rfl⟩

theorem readUInt_eq_ok {n : Nat} {payload : List UInt8} {pos pos' x : Nat}
    (h : readUInt n payload pos = .ok (x, pos')) :
    x = uintAt payload n pos ∧ pos' = pos + n := by
  rcases bind_eq_ok.mp h with ⟨⟨bytes, next⟩, hread, hret⟩
  cases hret
  rcases readBytes_eq_ok hread with ⟨hbytes, hnext⟩
  exact ⟨congrArg leNat hbytes, hnext⟩

theorem readSlotIdx_eq_ok {payload : List UInt8} {pos pos' x : Nat}
    (h : readSlotIdx payload pos = .ok (x, pos')) :
    x = uintAt payload 1 pos ∧ pos' = pos + 2 := by
  rcases bind_eq_ok.mp h with ⟨⟨bytes, next⟩, hread, hret⟩
  cases hret
  rcases readBytes_eq_ok hread with ⟨hbytes, hnext⟩
  refine ⟨?_, hnext⟩
  have hone : slice payload pos 1 = slice bytes.toList 0 1 := by
    rw [hbytes, slice_slice payload (by decide), Nat.add_zero]
  have hhead : slice bytes.toList 0 1 = [bytes.head] := by
    rw [← List.Vector.cons_head_tail bytes]
    rfl
  rw [uintAt, hone, hhead, leNat, leNat]
  rfl

theorem readSlots_eq_ok {payload : List UInt8} {n pos pos' : Nat}
    {acc slots : List (Nat × Nat)} (h : readSlots payload n pos acc = .ok (slots, pos')) :
    slots = acc ++ slotsAt payload pos n ∧ pos' = pos + 6 * n := by
  induction n generalizing pos acc with
  | zero =>
      cases h
      exact ⟨(List.append_nil _).symm, rfl⟩
  | succ n ih =>
      rcases bind_eq_ok.mp h with ⟨⟨bucketIdx, pos1⟩, hbucket, h1⟩
      rcases bind_eq_ok.mp h1 with ⟨⟨slotIdx, pos2⟩, hslot, h2⟩
      rcases readUInt_eq_ok hbucket with ⟨hbucketAt, hpos1⟩
      rcases readSlotIdx_eq_ok hslot with ⟨hslotAt, hpos2⟩
      rcases ih h2 with ⟨hslots, hpos'⟩
      have hsix : pos2 = pos + 6 := by lia
      constructor
      · rw [hslots, hsix, List.append_assoc, hbucketAt, hslotAt, hpos1]
        rfl
      · lia

theorem readBlocks_eq_ok {payload : List UInt8} {n pos pos' : Nat}
    {indices indices' : BlockIndices}
    (h : readBlocks payload n pos indices = .ok (indices', pos')) :
    indices' = (recordsAt payload pos n).foldl BlockIndices.add indices ∧
      pos' = recordsEnd payload pos n := by
  induction n generalizing pos indices with
  | zero =>
      cases h
      exact ⟨rfl, rfl⟩
  | succ n ih =>
      rcases bind_eq_ok.mp h with ⟨⟨height, pos1⟩, hheight, h1⟩
      rcases bind_eq_ok.mp h1 with ⟨⟨blockHash, pos2⟩, hhash, h2⟩
      rcases bind_eq_ok.mp h2 with ⟨⟨numSlots, pos3⟩, hcount, h3⟩
      rcases bind_eq_ok.mp h3 with ⟨⟨slots, pos4⟩, hslots, h4⟩
      rcases readUInt_eq_ok hheight with ⟨hheightAt, rfl⟩
      rcases readBytes_eq_ok hhash with ⟨hhashAt, rfl⟩
      rcases readUInt_eq_ok hcount with ⟨hcountAt, rfl⟩
      rcases readSlots_eq_ok hslots with ⟨hslotsAt, rfl⟩
      have hrecord : (height, { blockHash := blockHash, slots := slots }) =
          recordAt payload pos := by
        have hback : blockHash = ByteVec.ofBytes 32 (slice payload (pos + 8) 32) := by
          rw [← hhashAt, ByteVec.ofBytes_toList]
        rw [recordAt, hheightAt, hback, hslotsAt, hcountAt]
        rfl
      have hend : pos + 8 + 32 + 4 + 6 * numSlots = recordEnd payload pos := by
        rw [recordEnd, hcountAt]
        rfl
      rcases ih h4 with ⟨hindices, hpos'⟩
      rw [hrecord] at hindices
      rw [hend] at hindices hpos'
      exact ⟨hindices, hpos'⟩

theorem readHeader_eq_ok {payload : List UInt8} {numEntries numBlocks pos : Nat}
    (h : readHeader payload 0 = .ok ((numEntries, numBlocks), pos)) :
    numEntries = declaredEntries payload ∧ numBlocks = declaredBlocks payload ∧
      pos = 76 := by
  rcases bind_eq_ok.mp h with ⟨⟨magic, pos1⟩, hmagic, h1⟩
  rcases readUInt_eq_ok hmagic with ⟨_, rfl⟩
  dsimp only at h1
  split at h1
  · cases h1
  · rcases bind_eq_ok.mp h1 with ⟨⟨version, pos2⟩, hversion, h2⟩
    rcases readUInt_eq_ok hversion with ⟨_, rfl⟩
    dsimp only at h2
    split at h2
    · cases h2
    · rcases bind_eq_ok.mp h2 with ⟨⟨_, pos3⟩, hlatest, h3⟩
      rcases bind_eq_ok.mp h3 with ⟨⟨_, pos4⟩, hhashHeight, h4⟩
      rcases bind_eq_ok.mp h4 with ⟨⟨_, pos5⟩, hhash, h5⟩
      rcases bind_eq_ok.mp h5 with ⟨⟨entries, pos6⟩, hentries, h6⟩
      rcases bind_eq_ok.mp h6 with ⟨⟨blocks, pos7⟩, hblocks, h7⟩
      cases h7
      rcases readUInt_eq_ok hlatest with ⟨_, rfl⟩
      rcases readUInt_eq_ok hhashHeight with ⟨_, rfl⟩
      rcases readBytes_eq_ok hhash with ⟨_, rfl⟩
      rcases readUInt_eq_ok hentries with ⟨hentriesAt, rfl⟩
      rcases readUInt_eq_ok hblocks with ⟨hblocksAt, rfl⟩
      exact ⟨hentriesAt, hblocksAt, rfl⟩

theorem fromPayload_eq_ok {payload : List UInt8} {db : HashTableDb}
    (h : fromPayload payload = .ok db) :
    bucketStart payload + numBuckets * bucketBytes ≤ payload.length ∧
    db.numEntries = declaredEntries payload ∧
    db.buckets = (fun b => readBucket payload (bucketStart payload + b.val * bucketBytes)) ∧
    db.blockIndex = ((blockSection payload).foldl BlockIndices.add
      BlockIndices.empty).blockIndex ∧
    db.blockHashToHeight = ((blockSection payload).foldl BlockIndices.add
      BlockIndices.empty).blockHashToHeight := by
  rcases bind_eq_ok.mp h with ⟨⟨⟨numEntries, numBlocks⟩, pos⟩, hheader, h1⟩
  rcases bind_eq_ok.mp h1 with ⟨⟨indices, pos'⟩, hblocks, h2⟩
  rcases bind_eq_ok.mp h2 with ⟨buckets, hbuckets, h3⟩
  cases h3
  rcases readHeader_eq_ok hheader with ⟨rfl, rfl, rfl⟩
  rcases readBlocks_eq_ok hblocks with ⟨rfl, rfl⟩
  unfold readBuckets at hbuckets
  split at hbuckets
  · cases hbuckets
  · next hroom =>
      cases hbuckets
      exact ⟨Nat.le_of_not_gt hroom, rfl, rfl, rfl, rfl⟩

theorem fromPayload_of_fromSnapshot {xxh64 : List UInt8 -> Nat -> UInt64}
    {data : List UInt8} {db : HashTableDb} (h : fromSnapshot xxh64 data = .ok db) :
    fromPayload (payloadOf data) = .ok db := by
  unfold fromSnapshot at h
  split at h
  · cases h
  · dsimp only at h
    split at h
    · cases h
    · exact h

theorem readBuckets_occupied {payload : List UInt8} {db : HashTableDb}
    (h : fromPayload payload = .ok db) (slot : Nat × Nat) :
    (entryAt db.buckets slot).isEmpty = false ↔
      (slot.1 < numBuckets ∧ slot.2 < bucketCapacity) ∧
        storedNullifier payload slot ≠ ByteVec.zeros 32 := by
  rcases fromPayload_eq_ok h with ⟨hroom, _, hbuckets, _, _⟩
  by_cases hin : slot.1 < numBuckets ∧ slot.2 < bucketCapacity
  · have hentry : (entryAt db.buckets slot).nullifier = storedNullifier payload slot := by
      have hend : bucketStart payload + slot.1 * bucketBytes + slot.2 * entryBytes +
          entryBytes ≤ payload.length := by
        have hrow := Nat.mul_le_mul_right bucketBytes (Nat.succ_le_of_lt hin.left)
        have hcol := Nat.mul_le_mul_right entryBytes (Nat.succ_le_of_lt hin.right)
        rw [Nat.succ_mul] at hrow hcol
        have hwidth : bucketCapacity * entryBytes = bucketBytes := rfl
        lia
      have hlength : (slice payload (bucketStart payload + slot.1 * bucketBytes +
          slot.2 * entryBytes) entryBytes).length = entryBytes := by
        rw [slice, List.length_take, List.length_drop]
        lia
      rw [entryAt, dif_pos hin, hbuckets]
      show ByteVec.ofBytes 32 (slice (ByteVec.ofBytes entryBytes (slice payload
        (bucketStart payload + slot.1 * bucketBytes + slot.2 * entryBytes)
        entryBytes)).toList 0 32) = _
      rw [ByteVec.toList_ofBytes hlength, slice_slice payload (by decide), Nat.add_zero]
      rfl
    rw [NullifierEntry.isEmpty, hentry, decide_eq_false_iff_not]
    exact ⟨fun hstored => ⟨hin, hstored⟩, fun hboth => hboth.right⟩
  · rw [entryAt, dif_neg hin, NullifierEntry.isEmpty_zero]
    exact ⟨fun hfalse => Bool.noConfusion hfalse, fun hboth => absurd hboth.left hin⟩

/-!
## Valid tables
-/

/-- The slot lists, the buckets, the counter and the two indices of a table agree. -/
structure Valid (db : HashTableDb) : Prop where
  inRange : forall slot, slot ∈ slotRefs db.blockIndex ->
    slot.1 < numBuckets ∧ slot.2 < bucketCapacity
  distinct : (slotRefs db.blockIndex).Nodup
  occupied : forall slot, slot ∈ slotRefs db.blockIndex ↔
    (entryAt db.buckets slot).isEmpty = false
  count : db.numEntries = (slotRefs db.blockIndex).length
  hashes : HashIndexed db.blockHashToHeight db.blockIndex

theorem Valid.owned {db : HashTableDb} (h : db.Valid) :
    Owned db.buckets (slotRefs db.blockIndex) :=
  ⟨h.distinct, h.occupied⟩

theorem valid_of_owned {db : HashTableDb} (howned : Owned db.buckets (slotRefs db.blockIndex))
    (hcount : db.numEntries = (slotRefs db.blockIndex).length)
    (hhashes : HashIndexed db.blockHashToHeight db.blockIndex) : db.Valid :=
  { inRange := fun _ hslot => howned.inRange hslot
    distinct := howned.nodup
    occupied := howned.occupied
    count := hcount
    hashes := hhashes }

theorem DistinctBlocks.slotRefs_perm {payload : List UInt8} {db : HashTableDb}
    (hdistinct : DistinctBlocks payload) (h : fromPayload payload = .ok db) :
    (slotRefs db.blockIndex).Perm (listedSlots payload) ∧
      HashIndexed db.blockHashToHeight db.blockIndex := by
  rcases fromPayload_eq_ok h with ⟨_, _, _, hindex, hhashes⟩
  have hheights : (([] ++ blockSection payload).map Prod.fst).Nodup := hdistinct.heights
  have hblockHashes : (([] ++ blockSection payload).map
      (fun e : Nat × BlockRecord => e.2.blockHash)).Nodup := hdistinct.hashes
  rcases foldl_add_of_distinct hashIndexed_empty (List.Perm.refl _) hheights
    hblockHashes with ⟨hindexed, hperm⟩
  rw [← hindex, ← hhashes] at hindexed
  rw [← hindex] at hperm
  exact ⟨hperm.flatMap_right (fun e : Nat × BlockRecord => e.2.slots), hindexed⟩

theorem valid_iff_sectionsAgree {payload : List UInt8} {db : HashTableDb}
    (h : fromPayload payload = .ok db) :
    DistinctBlocks payload ∧ db.Valid ↔ SectionsAgree payload := by
  rcases fromPayload_eq_ok h with ⟨_, hentries, _, _, _⟩
  constructor
  · rintro ⟨hdistinct, hvalid⟩
    have hperm := (hdistinct.slotRefs_perm h).left
    constructor
    · exact hdistinct
    · exact hperm.nodup_iff.mp hvalid.distinct
    · intro slot
      rw [← hperm.mem_iff, hvalid.occupied slot, readBuckets_occupied h slot]
    · rw [← hentries, hvalid.count, hperm.length_eq]
  · intro hagree
    rcases hagree.blocks.slotRefs_perm h with ⟨hperm, hindexed⟩
    refine ⟨hagree.blocks, valid_of_owned ⟨?_, ?_⟩ ?_ hindexed⟩
    · exact hperm.nodup_iff.mpr hagree.slots
    · intro slot
      rw [hperm.mem_iff, hagree.stored slot, readBuckets_occupied h slot]
    · rw [hentries, hagree.entries, hperm.length_eq]

/-!
## Calls on a table
-/

/-- The table after a sequence of calls, whatever they reply. -/
def afterCalls : HashTableDb -> List TableCall -> Option HashTableDb
  | db, [] => some db
  | db, first :: rest =>
      match db.call first with
      | none => none
      | some (db', _) => afterCalls db' rest

/-- No sequence of calls panics. -/
def NeverPanics (db : HashTableDb) : Prop :=
  forall calls, exists db', db.afterCalls calls = some db'

def CanBeEmptied (db : HashTableDb) : Prop :=
  exists count db', db.afterCalls (List.replicate count .evictOldestBlock) = some db' ∧
    db'.numEntries = 0 ∧ forall slot, (entryAt db'.buckets slot).isEmpty = true

/-- Rolling back a block does not panic, known or not. -/
theorem Backed.rollbackBlock {db : HashTableDb} (h : db.Backed) (blockHash : ByteVec 32) :
    exists result, db.rollbackBlock blockHash = some result ∧ result.1.Backed := by
  unfold HashTableDb.rollbackBlock
  cases hheight : db.blockHashToHeight blockHash with
  | none => exact ⟨_, rfl, h⟩
  | some height =>
      cases hrecord : db.blockIndex.find? height with
      | none =>
          refine ⟨(db.forgetHash blockHash, .error .blockNotFound), ?_, ?_⟩
          · simp only [hrecord]
          · exact ⟨h.inRange, h.covered⟩
      | some record =>
          have hmid : ((db.forgetHash blockHash).forgetHeight height).blockIndex =
              db.blockIndex.erase height := rfl
          rcases h.removeRecord hrecord hmid rfl with ⟨removed, hremove, hbacked, _, _⟩
          refine ⟨(removed, .ok ()), ?_, hbacked⟩
          simp only [hrecord, hremove]

theorem Backed.call {db : HashTableDb} (h : db.Backed) (c : TableCall) :
    exists db' reply, db.call c = some (db', reply) ∧ db'.Backed := by
  cases c with
  | insertBlock height blockHash nullifiers =>
      exact ⟨_, _, rfl, h.insertBlock height.toNat blockHash nullifiers⟩
  | rollbackBlock blockHash =>
      rcases h.rollbackBlock blockHash with ⟨result, hcall, hbacked⟩
      refine ⟨result.1, .result result.2, ?_, hbacked⟩
      rw [HashTableDb.call, hcall]
      rfl
  | evictOldestBlock =>
      rcases h.evictOldestBlock with
        ⟨_, hcall⟩ | ⟨first, evicted, _, hcall, hbacked, _, _⟩
      · refine ⟨db, .evicted none, ?_, h⟩
        rw [HashTableDb.call, hcall]
        rfl
      · refine ⟨evicted, .evicted (some first.1), ?_, hbacked⟩
        rw [HashTableDb.call, hcall]
        rfl
  | evictToTarget =>
      rcases h.evictToTarget with ⟨evicted, hcall, hbacked⟩
      refine ⟨evicted, .done, ?_, hbacked⟩
      rw [HashTableDb.call, hcall]
      rfl
  | toPirBytes => exact ⟨db, _, rfl, h⟩

theorem Backed.neverPanics {db : HashTableDb} (h : db.Backed) : db.NeverPanics := by
  intro calls
  induction calls generalizing db with
  | nil => exact ⟨db, rfl⟩
  | cons first rest ih =>
      rcases h.call first with ⟨mid, reply, hcall, hmid⟩
      rcases ih hmid with ⟨db', hrest⟩
      refine ⟨db', ?_⟩
      rw [afterCalls, hcall]
      exact hrest

/-- Evicting the oldest block of a valid table leaves a valid one. -/
theorem Valid.evictOldestBlock {db : HashTableDb} (h : db.Valid) {first : Nat × BlockRecord}
    (hfirst : db.blockIndex.first? = some first) :
    exists evicted, db.evictOldestBlock = some (evicted, some first.1) ∧ evicted.Valid := by
  have hrecord := OrderedMap.find?_of_first? hfirst
  rcases h.owned.removeRecord h.count hrecord with ⟨buckets, hremove, howned, hcount, _⟩
  have hswap : (db.forgetHeight first.1).forgetHash first.2.blockHash =
      (db.forgetHash first.2.blockHash).forgetHeight first.1 := rfl
  let evicted : HashTableDb :=
    { buckets := buckets
      blockIndex := db.blockIndex.erase first.1
      blockHashToHeight := Function.update db.blockHashToHeight first.2.blockHash none
      numEntries := db.numEntries - first.2.slots.length }
  have hleft : evicted.numEntries = (slotRefs evicted.blockIndex).length := by
    show db.numEntries - first.2.slots.length =
      (slotRefs (db.blockIndex.erase first.1)).length
    lia
  refine ⟨evicted, ?_, valid_of_owned howned hleft (h.hashes.erase hrecord)⟩
  rw [HashTableDb.evictOldestBlock, hfirst]
  simp only [hswap, hremove]
  rfl

theorem Valid.empty_of_first? {db : HashTableDb} (h : db.Valid)
    (hnone : db.blockIndex.first? = none) :
    db.numEntries = 0 ∧ forall slot, (entryAt db.buckets slot).isEmpty = true := by
  have hentries : db.blockIndex.entries = [] := List.head?_eq_none_iff.mp hnone
  have hslots : slotRefs db.blockIndex = [] := by
    rw [slotRefs, hentries]
    rfl
  constructor
  · rw [h.count, hslots]
    rfl
  · intro slot
    rw [← Bool.not_eq_false, ← h.occupied slot, hslots]
    exact List.not_mem_nil

theorem Valid.canBeEmptied {db : HashTableDb} (h : db.Valid) : db.CanBeEmptied := by
  induction hsize : db.blockIndex.size using Nat.strong_induction_on generalizing db with
  | _ size ih =>
      cases hfirst : db.blockIndex.first? with
      | none => exact ⟨0, db, rfl, h.empty_of_first? hfirst⟩
      | some first =>
          rcases h.evictOldestBlock hfirst with ⟨evicted, hevict, hvalid⟩
          have hlt := evictOldestBlock_size_lt hevict
          rw [hsize] at hlt
          rcases ih _ hlt hvalid rfl with ⟨count, db', hcalls, hempty⟩
          refine ⟨count + 1, db', ?_, hempty⟩
          rw [List.replicate_succ, afterCalls, call, hevict]
          exact hcalls

/-!
## Accepted tables
-/

/-- An accepted table is valid, never panics and can be emptied exactly when the sections
of the snapshot agree. -/
theorem fromSnapshot_valid_iff {xxh64 : List UInt8 -> Nat -> UInt64} {data : List UInt8}
    {db : HashTableDb} (h : fromSnapshot xxh64 data = .ok db) :
    (DistinctBlocks (payloadOf data) ∧ db.Valid ∧ db.NeverPanics ∧ db.CanBeEmptied) ↔
      SectionsAgree (payloadOf data) := by
  have hiff := valid_iff_sectionsAgree (fromPayload_of_fromSnapshot h)
  constructor
  · rintro ⟨hdistinct, hvalid, _, _⟩
    exact hiff.mp ⟨hdistinct, hvalid⟩
  · intro hagree
    rcases hiff.mpr hagree with ⟨hdistinct, hvalid⟩
    have hbacked : db.Backed := ⟨hvalid.inRange, Nat.le_of_eq hvalid.count.symm⟩
    exact ⟨hdistinct, hvalid, hbacked.neverPanics, hvalid.canBeEmptied⟩

theorem payloadOf_snapshotBytes (xxh64 : List UInt8 -> Nat -> UInt64) (db : HashTableDb) :
    payloadOf (db.snapshotBytes xxh64) = db.payloadBytes := by
  have hcut : (db.snapshotBytes xxh64).length - 8 = db.payloadBytes.length := by
    rw [snapshotBytes, List.length_append, length_leBytes, Nat.add_sub_cancel]
  rw [payloadOf, hcut, snapshotBytes, List.take_left]

theorem recordAt_of_drop_eq {payload rest : List UInt8} {pos : Nat} {e : Nat × BlockRecord}
    (h : payload.drop pos = recordBytes e ++ rest) (hheight : e.1 < 2 ^ 64)
    (hlength : e.2.slots.length < 2 ^ 32)
    (hslots : forall slot, slot ∈ e.2.slots -> slot.1 < 2 ^ 32 ∧ slot.2 < 2 ^ 8) :
    recordAt payload pos = e ∧ payload.drop (recordEnd payload pos) = rest := by
  have hone : payload.drop pos = [e].flatMap recordBytes ++ rest := by
    rw [List.flatMap_singleton]
    exact h
  rcases readBlocks_of_drop_eq BlockIndices.empty hone (by simpa using hheight)
    (by simpa using hlength) (by simpa using hslots) with ⟨pos', hread, hrest⟩
  rcases readBlocks_eq_ok hread with ⟨hindices, hpos⟩
  have hentries := congrArg (fun indices => indices.blockIndex.entries) hindices
  change [e] = [recordAt payload pos] at hentries
  rw [List.cons.injEq] at hentries
  rw [hpos] at hrest
  exact ⟨hentries.left.symm, hrest⟩

theorem recordsAt_of_drop_eq {payload rest : List UInt8} {pos : Nat}
    {entries : List (Nat × BlockRecord)}
    (h : payload.drop pos = entries.flatMap recordBytes ++ rest)
    (hheights : forall e, e ∈ entries -> e.1 < 2 ^ 64)
    (hlengths : forall e, e ∈ entries -> e.2.slots.length < 2 ^ 32)
    (hslots : forall e, e ∈ entries -> forall slot, slot ∈ e.2.slots ->
      slot.1 < 2 ^ 32 ∧ slot.2 < 2 ^ 8) :
    recordsAt payload pos entries.length = entries := by
  induction entries generalizing pos with
  | nil => rfl
  | cons e later ih =>
      rw [List.flatMap_cons, List.append_assoc] at h
      have hhead : e ∈ e :: later := List.mem_cons_self
      rcases recordAt_of_drop_eq h (hheights e hhead) (hlengths e hhead)
        (hslots e hhead) with ⟨hrecord, hnext⟩
      rw [List.length_cons, recordsAt, hrecord]
      congr 1
      apply ih hnext
      · exact fun a ha => hheights a (List.mem_cons_of_mem e ha)
      · exact fun a ha => hlengths a (List.mem_cons_of_mem e ha)
      · exact fun a ha => hslots a (List.mem_cons_of_mem e ha)

theorem FitsFields.blockSection_eq {db : HashTableDb} (hfits : db.FitsFields) :
    blockSection db.payloadBytes = db.blockIndex.entries := by
  have hstart : db.payloadBytes.drop 0 = db.payloadBytes := rfl
  rcases readHeader_of_drop_eq hfits hstart with ⟨pos, hheader, hrecords⟩
  rcases readHeader_eq_ok hheader with ⟨_, hblocks, hpos⟩
  rw [hpos] at hrecords
  rw [blockSection, ← hblocks]
  exact recordsAt_of_drop_eq hrecords hfits.heights hfits.lengths hfits.slots

theorem Consistent.distinctBlocks {db : HashTableDb} (hcons : Consistent db)
    (hfits : db.FitsFields) : DistinctBlocks db.payloadBytes := by
  constructor
  · rw [hfits.blockSection_eq]
    exact List.pairwise_map.mpr (db.blockIndex.sorted.imp (fun hlt => Nat.ne_of_lt hlt))
  · rw [hfits.blockSection_eq]
    exact List.pairwise_map.mpr hcons.hashes_pairwise

theorem Consistent.valid {db : HashTableDb} (h : Consistent db) : db.Valid :=
  valid_of_owned h.owned h.count h.hashes

/-- The snapshot of a table with two blocks of one nullifier each is accepted, and its
sections agree. -/
theorem fromSnapshot_valid_iff_twoBlocks :
    exists data db, fromSnapshot (fun _ _ => 0) data = .ok db ∧
      (blockSection (payloadOf data)).map (fun e => (e.1, e.2.slots.length)) =
        [(7, 1), (8, 1)] ∧
      SectionsAgree (payloadOf data) := by
  have hnonzero : forall nwm, nwm ∈ [oneNullifier] ->
      nwm.nullifier ≠ ByteVec.zeros 32 := by decide
  let mid := (new.insertBlock 7 (ByteVec.zeros 32) [oneNullifier]).1
  let db := (mid.insertBlock 8 (ByteVec.ofBytes 32 [1]) [oneNullifier]).1
  have hmid : new.insertBlock 7 (ByteVec.zeros 32) [oneNullifier] = (mid, .ok ()) := rfl
  have hdb : mid.insertBlock 8 (ByteVec.ofBytes 32 [1]) [oneNullifier] = (db, .ok ()) := rfl
  have hrepMid := represents_insertBlock represents_new (by decide) rfl rfl hnonzero hmid
  have hrep := represents_insertBlock hrepMid (by decide) rfl rfl hnonzero hdb
  have hcons := hrep.consistent
  have hfits : db.FitsFields := hcons.fitsFields (by decide)
  have haccepted : fromSnapshot (fun _ _ => 0) (db.snapshotBytes (fun _ _ => 0)) =
      .ok db.recounted := by
    rw [fromSnapshot_snapshotBytes, fromPayload_payloadBytes hfits, hcons.foldl_add_entries]
    rfl
  have hpayload := payloadOf_snapshotBytes (fun _ _ => 0) db
  refine ⟨_, _, haccepted, ?_, ?_⟩
  · rw [hpayload, hfits.blockSection_eq]
    rfl
  · have hdistinct := hcons.distinctBlocks hfits
    rw [← hpayload] at hdistinct
    have hvalid := (represents_recounted hrep).consistent.valid
    have hbacked : db.recounted.Backed :=
      ⟨hvalid.inRange, Nat.le_of_eq hvalid.count.symm⟩
    exact (fromSnapshot_valid_iff haccepted).mp
      ⟨hdistinct, hvalid, hbacked.neverPanics, hvalid.canBeEmptied⟩

/-- A table whose one record lists a slot past the last bucket. -/
def strayedSlot : HashTableDb :=
  { new with
    blockIndex := OrderedMap.empty.insert 1
      { blockHash := ByteVec.zeros 32, slots := [(numBuckets, 0)] }
    numEntries := 1 }

theorem fitsFields_strayedSlot : strayedSlot.FitsFields := by
  have hentries : strayedSlot.blockIndex.entries =
      [(1, { blockHash := ByteVec.zeros 32, slots := [(numBuckets, 0)] })] := rfl
  constructor
  · intro e he
    rw [hentries] at he
    rw [List.mem_singleton.mp he]
    decide
  · intro e he
    rw [hentries] at he
    rw [List.mem_singleton.mp he]
    decide
  · intro e he slot hslot
    rw [hentries] at he
    rw [List.mem_singleton.mp he] at hslot
    rw [List.mem_singleton.mp hslot]
    decide
  · decide
  · rw [OrderedMap.size, hentries]
    decide

/-- The snapshot of that table is accepted, whatever the checksum function, and evicting
its block panics. -/
theorem fromSnapshot_strayedSlot :
    ¬ exists xxh64 : List UInt8 -> Nat -> UInt64, forall db,
      fromSnapshot xxh64 (strayedSlot.snapshotBytes xxh64) = .ok db ->
        DistinctBlocks (payloadOf (strayedSlot.snapshotBytes xxh64)) ∧ db.Valid ∧
          db.NeverPanics ∧ db.CanBeEmptied := by
  rintro ⟨xxh64, hall⟩
  have haccepted := fromSnapshot_snapshotBytes xxh64 strayedSlot
  rw [fromPayload_payloadBytes fitsFields_strayedSlot] at haccepted
  rcases hall _ haccepted with ⟨_, _, hnever, _⟩
  rcases hnever [.evictOldestBlock] with ⟨db', hcall⟩
  cases hcall

end HashTableDb
end Nullifier
end SpendabilityPir
