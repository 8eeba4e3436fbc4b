import Mathlib.Data.List.GetD
import SpendabilityPir.Foundation.Bytes

/-!
# Types of the nullifier service

The table geometry, the 41-byte entry format and the metadata a client decodes
from it.
-/

namespace SpendabilityPir
namespace Nullifier

open Foundation

def targetSize : Nat := 1000000
def numBuckets : Nat := 16384
def bucketCapacity : Nat := 112
def entryBytes : Nat := 41
def bucketBytes : Nat := bucketCapacity * entryBytes
def dbBytes : Nat := numBuckets * bucketBytes

/-- The bucket of a nullifier, from its first four bytes. -/
def hashToBucket (nf : ByteVec 32) : Fin numBuckets :=
  ⟨leNat (slice nf.toList 0 4) % numBuckets, Nat.mod_lt _ (by decide)⟩

/-- A nullifier with the output range of its transaction. -/
structure NullifierWithMeta where
  nullifier : ByteVec 32
  firstOutputPosition : UInt32
  actionCount : UInt8
deriving DecidableEq

/-- The entry stored in a bucket slot. -/
structure NullifierEntry where
  nullifier : ByteVec 32
  spendHeight : UInt32
  firstOutputPosition : UInt32
  actionCount : UInt8
deriving DecidableEq

namespace NullifierEntry

def zero : NullifierEntry :=
  { nullifier := ByteVec.zeros 32
    spendHeight := 0
    firstOutputPosition := 0
    actionCount := 0 }

def isEmpty (entry : NullifierEntry) : Bool :=
  decide (entry.nullifier = ByteVec.zeros 32)

def tailBytes (entry : NullifierEntry) : List UInt8 :=
  leBytes 4 entry.spendHeight.toNat ++
    (leBytes 4 entry.firstOutputPosition.toNat ++ [entry.actionCount])

def toBytes (entry : NullifierEntry) : ByteVec entryBytes :=
  ⟨entry.nullifier.toList ++ entry.tailBytes, by simp [tailBytes, entryBytes]⟩

def fromBytes (buf : ByteVec entryBytes) : NullifierEntry :=
  { nullifier := ByteVec.ofBytes 32 (slice buf.toList 0 32)
    spendHeight := UInt32.ofNat (leNat (slice buf.toList 32 4))
    firstOutputPosition := UInt32.ofNat (leNat (slice buf.toList 36 4))
    actionCount := buf.toList.getD 40 0 }

@[simp] theorem isEmpty_zero : zero.isEmpty = true := by
  simp [zero, isEmpty]

theorem length_toBytes (entry : NullifierEntry) :
    entry.toBytes.toList.length = entryBytes :=
  entry.toBytes.toList_length

theorem slice_toBytes_nullifier (entry : NullifierEntry) :
    slice entry.toBytes.toList 0 32 = entry.nullifier.toList := by
  have hlen : entry.nullifier.toList.length = 32 := entry.nullifier.toList_length
  show (entry.nullifier.toList ++ entry.tailBytes).take 32 = entry.nullifier.toList
  rw [List.take_append_of_le_length (Nat.le_of_eq hlen.symm),
    List.take_of_length_le (Nat.le_of_eq hlen)]

theorem slice_toBytes_tail (entry : NullifierEntry) (start len : Nat) :
    slice entry.toBytes.toList (32 + start) len =
      slice entry.tailBytes start len := by
  have hlen : entry.nullifier.toList.length = 32 := entry.nullifier.toList_length
  have hstart : 32 + start = entry.nullifier.toList.length + start := by rw [hlen]
  show ((entry.nullifier.toList ++ entry.tailBytes).drop (32 + start)).take len = _
  rw [hstart, List.drop_length_add_append]
  rfl

theorem ofNat_leNat_leBytes (x : UInt32) :
    UInt32.ofNat (leNat (leBytes 4 x.toNat)) = x := by
  rw [leNat_leBytes x.toNat_lt, UInt32.ofNat_toNat]

/-- Decoding an encoded entry gives the entry back. -/
theorem fromBytes_toBytes (entry : NullifierEntry) :
    fromBytes entry.toBytes = entry := by
  have hheight : slice entry.toBytes.toList 32 4 =
      leBytes 4 entry.spendHeight.toNat :=
    slice_toBytes_tail entry 0 4
  have hposition : slice entry.toBytes.toList 36 4 =
      leBytes 4 entry.firstOutputPosition.toNat :=
    slice_toBytes_tail entry 4 4
  have hcount : entry.toBytes.toList.getD 40 0 = entry.actionCount := by
    have hlen : entry.nullifier.toList.length = 32 := entry.nullifier.toList_length
    show (entry.nullifier.toList ++ entry.tailBytes).getD 40 0 = _
    rw [List.getD_append_right _ _ _ _ (by lia), hlen]
    rfl
  rw [fromBytes, slice_toBytes_nullifier, hheight, hposition, hcount,
    ByteVec.ofBytes_toList, ofNat_leNat_leBytes, ofNat_leNat_leBytes]

end NullifierEntry

/-- What a client learns about a spent nullifier. -/
structure SpendMetadata where
  spendHeight : UInt32
  firstOutputPosition : UInt32
  actionCount : UInt8
deriving DecidableEq

namespace SpendMetadata

def fromEntryTail (buf : ByteVec 9) : SpendMetadata :=
  { spendHeight := UInt32.ofNat (leNat (slice buf.toList 0 4))
    firstOutputPosition := UInt32.ofNat (leNat (slice buf.toList 4 4))
    actionCount := buf.toList.getD 8 0 }

end SpendMetadata

def NullifierEntry.metadata (entry : NullifierEntry) : SpendMetadata :=
  { spendHeight := entry.spendHeight
    firstOutputPosition := entry.firstOutputPosition
    actionCount := entry.actionCount }

theorem fromEntryTail_tailBytes (entry : NullifierEntry) :
    SpendMetadata.fromEntryTail (ByteVec.ofBytes 9 entry.tailBytes) =
      entry.metadata := by
  have hlen : entry.tailBytes.length = 9 := by simp [NullifierEntry.tailBytes]
  have hbuf : ByteVec.ofBytes 9 entry.tailBytes = ⟨entry.tailBytes, hlen⟩ :=
    ByteVec.ofBytes_toList ⟨entry.tailBytes, hlen⟩
  rw [hbuf]
  show SpendMetadata.mk
    (UInt32.ofNat (leNat (leBytes 4 entry.spendHeight.toNat)))
    (UInt32.ofNat (leNat (leBytes 4 entry.firstOutputPosition.toNat)))
    entry.actionCount = entry.metadata
  rw [NullifierEntry.ofNat_leNat_leBytes, NullifierEntry.ofNat_leNat_leBytes]
  rfl

structure OrphanedBlock where
  height : Nat
  hash : ByteVec 32

/-- A block that a reorganization brought in. -/
structure NewBlock where
  height : Nat
  hash : ByteVec 32
  prevHash : ByteVec 32
  nullifiers : List NullifierWithMeta

/-- What the ingest task tells the server. -/
inductive ChainEvent where
  | newBlock (height : Nat) (hash prevHash : ByteVec 32)
      (nullifiers : List NullifierWithMeta)
  | reorg (orphaned : List OrphanedBlock) (newBlocks : List NewBlock)

end Nullifier
end SpendabilityPir
