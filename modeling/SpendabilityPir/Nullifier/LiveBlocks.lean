import Mathlib.Algebra.GroupWithZero.Nat
import SpendabilityPir.Foundation.OrderedMap
import SpendabilityPir.Nullifier.SpendTypes

/-!
# Live blocks

What the nullifier table is for, without buckets or slots: the blocks that were
inserted and neither rolled back nor evicted, by height.
-/

namespace SpendabilityPir
namespace Nullifier

open Foundation

structure LiveBlock where
  hash : ByteVec 32
  nullifiers : List NullifierWithMeta

abbrev LiveBlocks := OrderedMap Nat LiveBlock

/-- The calls a history of the table is made of. -/
inductive TableOp where
  | insertBlock (height : UInt64) (blockHash : ByteVec 32)
      (nullifiers : List NullifierWithMeta)
  | rollbackBlock (blockHash : ByteVec 32)
  | evictOldestBlock
  | evictToTarget
  | restore

namespace LiveBlocks

def totalNullifiers (entries : List (Nat × LiveBlock)) : Nat :=
  (entries.map (fun e => e.2.nullifiers.length)).sum

/-- Drop blocks from the front until at most the limit of nullifiers is left. -/
def trimEntries (limit : Nat) : List (Nat × LiveBlock) -> List (Nat × LiveBlock)
  | [] => []
  | e :: rest =>
      if totalNullifiers (e :: rest) > limit then trimEntries limit rest
      else e :: rest

theorem trimEntries_suffix (limit : Nat) (entries : List (Nat × LiveBlock)) :
    (trimEntries limit entries).IsSuffix entries := by
  induction entries with
  | nil => exact List.suffix_rfl
  | cons e rest ih =>
      unfold trimEntries
      split
      · exact ih.trans (List.suffix_cons e rest)
      · exact List.suffix_rfl

def insertBlock (live : LiveBlocks) (height : Nat) (block : LiveBlock) : LiveBlocks :=
  OrderedMap.insert live height block

def rollbackBlock (live : LiveBlocks) (blockHash : ByteVec 32) : LiveBlocks :=
  OrderedMap.filterValues live (fun block => decide (block.hash ≠ blockHash))

def evictOldestBlock (live : LiveBlocks) : LiveBlocks :=
  { entries := live.entries.tail, sorted := live.sorted.tail }

def evictToTarget (live : LiveBlocks) : LiveBlocks :=
  { entries := trimEntries targetSize live.entries
    sorted := live.sorted.sublist (trimEntries_suffix _ _).sublist }

/-- The effect of one call on the set of live blocks. -/
def apply (live : LiveBlocks) : TableOp -> LiveBlocks
  | .insertBlock height blockHash nullifiers =>
      insertBlock live height.toNat { hash := blockHash, nullifiers := nullifiers }
  | .rollbackBlock blockHash => rollbackBlock live blockHash
  | .evictOldestBlock => evictOldestBlock live
  | .evictToTarget => evictToTarget live
  | .restore => live

def ofHistory (ops : List TableOp) : LiveBlocks :=
  ops.foldl apply OrderedMap.empty

/-- A nullifier occurs in a live block, at this height and with this metadata. -/
def Inserted (live : LiveBlocks) (height : Nat) (nwm : NullifierWithMeta) : Prop :=
  exists block, live.find? height = some block ∧ nwm ∈ block.nullifiers

def ContainsNullifier (live : LiveBlocks) (nf : ByteVec 32) : Prop :=
  exists height nwm, Inserted live height nwm ∧ nwm.nullifier = nf

def ContainsHash (live : LiveBlocks) (blockHash : ByteVec 32) : Prop :=
  exists height block, live.find? height = some block ∧ block.hash = blockHash

end LiveBlocks
end Nullifier
end SpendabilityPir
