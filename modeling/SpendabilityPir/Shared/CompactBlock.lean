import SpendabilityPir.Foundation.Bytes

/-!
# Compact blocks

The blocks lightwalletd streams, as far as the ingest pipelines read them.
-/

namespace SpendabilityPir
namespace Shared

open Foundation

structure CompactOrchardAction where
  nullifier : List UInt8
  cmx : List UInt8
  ephemeralKey : List UInt8
  ciphertext : List UInt8
deriving DecidableEq

structure CompactTx where
  actions : List CompactOrchardAction
deriving DecidableEq

structure ChainMetadata where
  orchardCommitmentTreeSize : UInt32
deriving DecidableEq

structure CompactBlock where
  height : UInt64
  hash : List UInt8
  prevHash : List UInt8
  vtx : List CompactTx
  chainMetadata : Option ChainMetadata
deriving DecidableEq

def toHashArray (bytes : List UInt8) : ByteVec 32 := ByteVec.ofBytes 32 bytes

theorem toHashArray_injective {a b : List UInt8} (ha : a.length = 32)
    (hb : b.length = 32) (h : toHashArray a = toHashArray b) : a = b := by
  rw [← ByteVec.toList_ofBytes ha, ← ByteVec.toList_ofBytes hb]
  exact congrArg List.Vector.toList h

namespace CompactBlock

def actions (block : CompactBlock) : List CompactOrchardAction :=
  block.vtx.flatMap CompactTx.actions

/-- The `orchardCommitmentTreeSize` of a block's chain metadata, if present. -/
def orchardTreeSize (block : CompactBlock) : Option UInt32 :=
  (block.chainMetadata.map ChainMetadata.orchardCommitmentTreeSize).filter
    (fun size => decide (size > 0))

theorem orchardTreeSize_pos {block : CompactBlock} {size : UInt32}
    (h : block.orchardTreeSize = some size) : size.toNat > 0 := by
  have hpos := (Option.filter_eq_some_iff.mp h).right
  exact UInt32.lt_iff_toNat_lt.mp (of_decide_eq_true hpos)

end CompactBlock

/-- The 32-byte values of one field of the actions; others are skipped. -/
def fieldsOf32 (field : CompactOrchardAction -> List UInt8)
    (actions : List CompactOrchardAction) : List (ByteVec 32) :=
  (actions.filter (fun action => decide ((field action).length = 32))).map
    (fun action => ByteVec.ofBytes 32 (field action))

end Shared
end SpendabilityPir
