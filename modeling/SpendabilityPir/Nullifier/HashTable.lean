import Mathlib.Data.Fintype.Basic
import Mathlib.Data.List.FinRange
import SpendabilityPir.Foundation.OrderedMap
import SpendabilityPir.Nullifier.SpendTypes

/-!
# The bucketed nullifier table

Buckets of 112 slots, a block index ordered by height, a hash index, and an entry
counter.  A slot is free exactly when its nullifier is all zero.  Calls that index
with stored slot references return `none` where the code would panic.
-/

namespace SpendabilityPir
namespace Nullifier

open Foundation

inductive HashTableError where
  | bucketOverflow (bucketIdx : Nat)
  | blockNotFound
  | snapshot (reason : String)
deriving DecidableEq

structure Bucket where
  entries : Fin bucketCapacity -> NullifierEntry
  count : Nat

namespace Bucket

def new : Bucket :=
  { entries := fun _ => NullifierEntry.zero, count := 0 }

def put (bucket : Bucket) (slot : Fin bucketCapacity) (entry : NullifierEntry) :
    Bucket :=
  { entries := Function.update bucket.entries slot entry
    count := if bucket.count ≤ slot.val then slot.val + 1 else bucket.count }

def remove (bucket : Bucket) (slot : Fin bucketCapacity) : Bucket :=
  { bucket with entries := Function.update bucket.entries slot NullifierEntry.zero }

theorem put_entries (bucket : Bucket) (slot : Fin bucketCapacity)
    (entry : NullifierEntry) :
    (bucket.put slot entry).entries = Function.update bucket.entries slot entry := rfl

theorem remove_entries (bucket : Bucket) (slot : Fin bucketCapacity) :
    (bucket.remove slot).entries =
      Function.update bucket.entries slot NullifierEntry.zero := rfl

def findFreeSlot (bucket : Bucket) : Option (Fin bucketCapacity) :=
  (List.finRange bucketCapacity).find? (fun i => (bucket.entries i).isEmpty)

def contains (bucket : Bucket) (nf : ByteVec 32) : Bool :=
  (List.finRange bucketCapacity).any
    (fun i => decide ((bucket.entries i).nullifier = nf))

end Bucket

/-- The slots a block occupies, as bucket and slot indices in insertion order. -/
structure BlockRecord where
  blockHash : ByteVec 32
  slots : List (Nat × Nat)

structure HashTableDb where
  buckets : Fin numBuckets -> Bucket
  blockIndex : OrderedMap Nat BlockRecord
  blockHashToHeight : ByteVec 32 -> Option Nat
  numEntries : Nat

namespace HashTableDb

def new : HashTableDb :=
  { buckets := fun _ => Bucket.new
    blockIndex := OrderedMap.empty
    blockHashToHeight := fun _ => none
    numEntries := 0 }

def putEntry (db : HashTableDb) (bucketIdx : Fin numBuckets)
    (slot : Fin bucketCapacity) (entry : NullifierEntry) : HashTableDb :=
  { db with
    buckets :=
      Function.update db.buckets bucketIdx ((db.buckets bucketIdx).put slot entry)
    numEntries := db.numEntries + 1 }

/-- The entry stored for a nullifier spent at a height. -/
def entryOf (spendHeight : UInt32) (nwm : NullifierWithMeta) : NullifierEntry :=
  { nullifier := nwm.nullifier
    spendHeight := spendHeight
    firstOutputPosition := nwm.firstOutputPosition
    actionCount := nwm.actionCount }

/-- The loop of `insertBlock`: it stops at the first full bucket, keeping what it
wrote so far. -/
def insertNullifiers (spendHeight : UInt32) :
    HashTableDb -> List (Nat × Nat) -> List NullifierWithMeta ->
      HashTableDb × Except HashTableError (List (Nat × Nat))
  | db, slots, [] => (db, .ok slots)
  | db, slots, nwm :: rest =>
      let bucketIdx := hashToBucket nwm.nullifier
      match (db.buckets bucketIdx).findFreeSlot with
      | none => (db, .error (.bucketOverflow bucketIdx.val))
      | some slot =>
          insertNullifiers spendHeight
            (db.putEntry bucketIdx slot (entryOf spendHeight nwm))
            (slots ++ [(bucketIdx.val, slot.val)]) rest

def insertBlock (db : HashTableDb) (height : Nat) (blockHash : ByteVec 32)
    (nullifiers : List NullifierWithMeta) :
    HashTableDb × Except HashTableError Unit :=
  match insertNullifiers (UInt32.ofNat height) db [] nullifiers with
  | (db', .error e) => (db', .error e)
  | (db', .ok slots) =>
      ({ db' with
         blockIndex :=
           db'.blockIndex.insert height { blockHash := blockHash, slots := slots }
         blockHashToHeight :=
           Function.update db'.blockHashToHeight blockHash (some height) },
       .ok ())

def removeSlot (buckets : Fin numBuckets -> Bucket) (slot : Nat × Nat) :
    Option (Fin numBuckets -> Bucket) :=
  if h : slot.1 < numBuckets ∧ slot.2 < bucketCapacity then
    some (Function.update buckets ⟨slot.1, h.left⟩
      ((buckets ⟨slot.1, h.left⟩).remove ⟨slot.2, h.right⟩))
  else none

def removeSlots (buckets : Fin numBuckets -> Bucket) :
    List (Nat × Nat) -> Option (Fin numBuckets -> Bucket)
  | [] => some buckets
  | slot :: rest =>
      match removeSlot buckets slot with
      | none => none
      | some buckets' => removeSlots buckets' rest

/-- Zero a record's slots and take them off the counter; the subtraction panics on
underflow. -/
def removeRecord (db : HashTableDb) (record : BlockRecord) : Option HashTableDb :=
  match removeSlots db.buckets record.slots with
  | none => none
  | some buckets =>
      if record.slots.length ≤ db.numEntries then
        some { db with
          buckets := buckets
          numEntries := db.numEntries - record.slots.length }
      else none

def forgetHeight (db : HashTableDb) (height : Nat) : HashTableDb :=
  { db with blockIndex := db.blockIndex.erase height }

def forgetHash (db : HashTableDb) (blockHash : ByteVec 32) : HashTableDb :=
  { db with
    blockHashToHeight := Function.update db.blockHashToHeight blockHash none }

/-- Remove all nullifiers inserted by the block with the given hash. -/
def rollbackBlock (db : HashTableDb) (blockHash : ByteVec 32) :
    Option (HashTableDb × Except HashTableError Unit) :=
  match db.blockHashToHeight blockHash with
  | none => some (db, .error .blockNotFound)
  | some height =>
      match db.blockIndex.find? height with
      | none =>
          some (db.forgetHash blockHash, .error .blockNotFound)
      | some record =>
          match ((db.forgetHash blockHash).forgetHeight height).removeRecord record with
          | none => none
          | some db' => some (db', .ok ())

def evictOldestBlock (db : HashTableDb) : Option (HashTableDb × Option Nat) :=
  match db.blockIndex.first? with
  | none => some (db, none)
  | some (oldestHeight, record) =>
      match ((db.forgetHeight oldestHeight).forgetHash record.blockHash).removeRecord
          record with
      | none => none
      | some db' => some (db', some oldestHeight)

theorem removeRecord_eq_some {db db' : HashTableDb} {record : BlockRecord}
    (h : removeRecord db record = some db') :
    exists buckets, removeSlots db.buckets record.slots = some buckets ∧
      db' = { db with
        buckets := buckets
        numEntries := db.numEntries - record.slots.length } := by
  unfold removeRecord at h
  split at h
  · cases h
  · next buckets hbuckets =>
      split at h
      · cases h
        exact ⟨buckets, hbuckets, rfl⟩
      · cases h

theorem removeRecord_blockIndex {db db' : HashTableDb} {record : BlockRecord}
    (h : removeRecord db record = some db') : db'.blockIndex = db.blockIndex := by
  rcases removeRecord_eq_some h with ⟨buckets, _, heq⟩
  rw [heq]

theorem removeRecord_numEntries {db db' : HashTableDb} {record : BlockRecord}
    (h : removeRecord db record = some db') :
    db'.numEntries = db.numEntries - record.slots.length := by
  rcases removeRecord_eq_some h with ⟨buckets, _, heq⟩
  rw [heq]

theorem evictOldestBlock_size_lt {db db' : HashTableDb} {height : Nat}
    (h : evictOldestBlock db = some (db', some height)) :
    db'.blockIndex.size < db.blockIndex.size := by
  unfold evictOldestBlock at h
  split at h
  · cases h
  · next oldestHeight record hfirst =>
      split at h
      · cases h
      · next db2 hremove =>
          cases h
          rw [removeRecord_blockIndex hremove]
          exact OrderedMap.size_erase_lt (OrderedMap.find?_of_first? hfirst)

/-- Evict oldest blocks until the table holds at most `targetSize` entries. -/
def evictToTarget (db : HashTableDb) : Option HashTableDb :=
  if db.numEntries > targetSize then
    match _h : evictOldestBlock db with
    | none => none
    | some (db', none) => some db'
    | some (db', some _) => evictToTarget db'
  else some db
termination_by db.blockIndex.size
decreasing_by exact evictOldestBlock_size_lt _h

theorem evictToTarget_of_le {db : HashTableDb} (h : db.numEntries ≤ targetSize) :
    db.evictToTarget = some db := by
  rw [evictToTarget, if_neg (Nat.not_lt_of_le h)]

/-- One round of the eviction loop. -/
theorem evictToTarget_of_gt {db : HashTableDb} (h : db.numEntries > targetSize) :
    db.evictToTarget =
      match db.evictOldestBlock with
      | none => none
      | some (db', none) => some db'
      | some (db', some _) => evictToTarget db' := by
  rw [evictToTarget, if_pos h]
  split <;> next hevict => rw [hevict]

/-- The rounds of an eviction loop that returns. -/
inductive EvictionRounds : HashTableDb -> HashTableDb -> Prop where
  | done {db : HashTableDb} : db.numEntries ≤ targetSize -> EvictionRounds db db
  | empty {db db' : HashTableDb} :
      db.evictOldestBlock = some (db', none) -> EvictionRounds db db'
  | round {db mid db' : HashTableDb} {height : Nat} :
      db.numEntries > targetSize -> db.evictOldestBlock = some (mid, some height) ->
      EvictionRounds mid db' -> EvictionRounds db db'

theorem evictionRounds_of_evictToTarget {db db' : HashTableDb}
    (h : db.evictToTarget = some db') : EvictionRounds db db' := by
  induction db using evictToTarget.induct with
  | case1 db hgt hnone =>
      rw [evictToTarget_of_gt hgt, hnone] at h
      cases h
  | case2 db hgt evicted hevict =>
      rw [evictToTarget_of_gt hgt, hevict] at h
      cases h
      exact .empty hevict
  | case3 db hgt evicted height hevict ih =>
      rw [evictToTarget_of_gt hgt, hevict] at h
      exact .round hgt hevict (ih h)
  | case4 db hle =>
      rw [evictToTarget_of_le (Nat.le_of_not_gt hle)] at h
      cases h
      exact .done (Nat.le_of_not_gt hle)

def contains (db : HashTableDb) (nf : ByteVec 32) : Bool :=
  (db.buckets (hashToBucket nf)).contains nf

def bucketPirBytes (bucket : Bucket) : List UInt8 :=
  (List.finRange bucketCapacity).flatMap (fun i => (bucket.entries i).toBytes.toList)

/-- The row-major table the PIR engine is set up with. -/
def toPirBytes (db : HashTableDb) : List UInt8 :=
  (List.finRange numBuckets).flatMap (fun b => bucketPirBytes (db.buckets b))

def len (db : HashTableDb) : Nat :=
  db.numEntries

def earliestHeight (db : HashTableDb) : Option Nat :=
  db.blockIndex.first?.map Prod.fst

def latestHeight (db : HashTableDb) : Option Nat :=
  db.blockIndex.last?.map Prod.fst

def latestBlockHash (db : HashTableDb) : Option (ByteVec 32) :=
  db.blockIndex.last?.map (fun e => e.2.blockHash)

/-!
## Entries by slot reference
-/

/-- The entry a slot reference points at; the zero entry outside the table. -/
def entryAt (buckets : Fin numBuckets -> Bucket) (slot : Nat × Nat) :
    NullifierEntry :=
  if h : slot.1 < numBuckets ∧ slot.2 < bucketCapacity then
    (buckets ⟨slot.1, h.left⟩).entries ⟨slot.2, h.right⟩
  else NullifierEntry.zero

@[simp] theorem entryAt_val (buckets : Fin numBuckets -> Bucket)
    (b : Fin numBuckets) (i : Fin bucketCapacity) :
    entryAt buckets (b.val, i.val) = (buckets b).entries i := by
  rw [entryAt, dif_pos ⟨b.isLt, i.isLt⟩]

theorem inRange_of_entryAt_nonempty {buckets : Fin numBuckets -> Bucket}
    {slot : Nat × Nat} (h : (entryAt buckets slot).isEmpty = false) :
    slot.1 < numBuckets ∧ slot.2 < bucketCapacity := by
  by_contra hout
  rw [entryAt, dif_neg hout, NullifierEntry.isEmpty_zero] at h
  cases h

theorem entryAt_update {buckets : Fin numBuckets -> Bucket} {b : Fin numBuckets}
    {i : Fin bucketCapacity} {entry : NullifierEntry} {bucket : Bucket}
    (h : bucket.entries = Function.update (buckets b).entries i entry)
    (slot : Nat × Nat) :
    entryAt (Function.update buckets b bucket) slot =
      if slot = (b.val, i.val) then entry else entryAt buckets slot := by
  by_cases hin : slot.1 < numBuckets ∧ slot.2 < bucketCapacity
  · rw [entryAt, dif_pos hin, entryAt, dif_pos hin]
    by_cases hb : slot.1 = b.val
    · have hbucket : (⟨slot.1, hin.left⟩ : Fin numBuckets) = b := Fin.ext hb
      rw [hbucket, Function.update_self, h]
      by_cases hi : slot.2 = i.val
      · have hslot : (⟨slot.2, hin.right⟩ : Fin bucketCapacity) = i := Fin.ext hi
        rw [hslot, Function.update_self, if_pos (Prod.ext hb hi)]
      · have hslot : (⟨slot.2, hin.right⟩ : Fin bucketCapacity) ≠ i :=
          fun heq => hi (congrArg Fin.val heq)
        rw [Function.update_of_ne hslot, if_neg (fun heq => hi (congrArg Prod.snd heq))]
    · have hbucket : (⟨slot.1, hin.left⟩ : Fin numBuckets) ≠ b :=
        fun heq => hb (congrArg Fin.val heq)
      rw [Function.update_of_ne hbucket, if_neg (fun heq => hb (congrArg Prod.fst heq))]
  · have hne : slot ≠ (b.val, i.val) := by
      intro heq
      rw [heq] at hin
      exact hin ⟨b.isLt, i.isLt⟩
    rw [entryAt, dif_neg hin, entryAt, dif_neg hin, if_neg hne]

theorem entryAt_putEntry (db : HashTableDb) (b : Fin numBuckets)
    (i : Fin bucketCapacity) (entry : NullifierEntry) (slot : Nat × Nat) :
    entryAt (db.putEntry b i entry).buckets slot =
      if slot = (b.val, i.val) then entry else entryAt db.buckets slot :=
  entryAt_update (Bucket.put_entries _ i entry) slot

theorem entryAt_removeSlot {buckets buckets' : Fin numBuckets -> Bucket}
    {removed : Nat × Nat} (h : removeSlot buckets removed = some buckets')
    (slot : Nat × Nat) :
    entryAt buckets' slot =
      if slot = removed then NullifierEntry.zero else entryAt buckets slot := by
  unfold removeSlot at h
  split at h
  · cases h
    exact entryAt_update (Bucket.remove_entries _ _) slot
  · cases h

theorem removeSlots_isSome {slots : List (Nat × Nat)}
    (buckets : Fin numBuckets -> Bucket)
    (h : forall slot, slot ∈ slots -> slot.1 < numBuckets ∧ slot.2 < bucketCapacity) :
    exists buckets', removeSlots buckets slots = some buckets' := by
  induction slots generalizing buckets with
  | nil => exact ⟨buckets, rfl⟩
  | cons slot rest ih =>
      have hslot := h slot List.mem_cons_self
      have hrest := fun s hs => h s (List.mem_cons_of_mem slot hs)
      rw [removeSlots, removeSlot, dif_pos hslot]
      exact ih _ hrest

theorem entryAt_removeSlots {slots : List (Nat × Nat)}
    {buckets buckets' : Fin numBuckets -> Bucket}
    (h : removeSlots buckets slots = some buckets') (slot : Nat × Nat) :
    entryAt buckets' slot =
      if slot ∈ slots then NullifierEntry.zero else entryAt buckets slot := by
  induction slots generalizing buckets with
  | nil =>
      cases h
      rw [if_neg List.not_mem_nil]
  | cons removed rest ih =>
      rw [removeSlots] at h
      split at h
      · cases h
      · next mid hmid =>
          rw [ih h, entryAt_removeSlot hmid]
          by_cases hrest : slot ∈ rest
          · rw [if_pos hrest, if_pos (List.mem_cons_of_mem removed hrest)]
          · by_cases heq : slot = removed
            · rw [if_neg hrest, if_pos heq, if_pos (heq ▸ List.mem_cons_self)]
            · have hnot : slot ∉ removed :: rest := by
                simp [heq, hrest]
              rw [if_neg hrest, if_neg heq, if_neg hnot]

theorem findFreeSlot_isEmpty {bucket : Bucket} {slot : Fin bucketCapacity}
    (h : bucket.findFreeSlot = some slot) :
    (bucket.entries slot).isEmpty = true :=
  List.find?_some (p := fun i => (bucket.entries i).isEmpty) h

theorem contains_iff {db : HashTableDb} {nf : ByteVec 32} :
    db.contains nf = true ↔
      exists i, ((db.buckets (hashToBucket nf)).entries i).nullifier = nf := by
  simp [contains, Bucket.contains]

/-!
## The row-major encoding
-/

theorem length_bucketPirBytes (bucket : Bucket) :
    (bucketPirBytes bucket).length = bucketBytes := by
  rw [bucketPirBytes,
    length_flatMap_const (fun i => (bucket.entries i).length_toBytes),
    List.length_finRange]
  rfl

theorem length_toPirBytes (db : HashTableDb) : db.toPirBytes.length = dbBytes := by
  rw [toPirBytes, length_flatMap_const (fun b => length_bucketPirBytes (db.buckets b)),
    List.length_finRange]
  rfl

theorem slice_bucketPirBytes (bucket : Bucket) (i : Fin bucketCapacity) :
    slice (bucketPirBytes bucket) (i.val * entryBytes) entryBytes =
      (bucket.entries i).toBytes.toList := by
  have hlt : i.val < (List.finRange bucketCapacity).length := by
    rw [List.length_finRange]
    exact i.isLt
  rw [bucketPirBytes,
    slice_flatMap_const (fun j => (bucket.entries j).length_toBytes) _ hlt,
    List.getElem_finRange]
  rfl

/-- The PIR row of a bucket holds the bucket's bytes. -/
theorem slice_toPirBytes (db : HashTableDb) (b : Fin numBuckets) :
    slice db.toPirBytes (b.val * bucketBytes) bucketBytes =
      bucketPirBytes (db.buckets b) := by
  have hlt : b.val < (List.finRange numBuckets).length := by
    rw [List.length_finRange]
    exact b.isLt
  rw [toPirBytes,
    slice_flatMap_const (fun c => length_bucketPirBytes (db.buckets c)) _ hlt,
    List.getElem_finRange]
  rfl

end HashTableDb
end Nullifier
end SpendabilityPir
