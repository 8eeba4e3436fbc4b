import SpendabilityPir.Foundation.Bytes
import SpendabilityPir.Foundation.MachineInt

/-!
# Types of the witness service

The geometry of the depth-32 commitment tree (a cap of shards, sub-shards in a
shard, leaves in a sub-shard) and the payloads a client downloads.
-/

namespace SpendabilityPir
namespace Witness

open Foundation

def treeDepth : Nat := 32
def shardHeight : Nat := 16
def subshardHeight : Nat := 8
def subshardLeaves : Nat := 2 ^ subshardHeight
def subshardsPerShard : Nat := 2 ^ subshardHeight
def shardLeaves : Nat := 2 ^ shardHeight
def subshardRowBytes : Nat := subshardLeaves * 32
def l0DbRows : Nat := 8192
def l0DbBytes : Nat := l0DbRows * subshardRowBytes
def l0MaxShards : Nat := 32

abbrev Hash := ByteVec 32

/-- The authentication path of a position, leaf to root. -/
structure PirWitness where
  position : Nat
  siblings : Fin treeDepth -> Hash
  anchorHeight : Nat
  anchorRoot : Hash

/-- The shard, the sub-shard in it and the leaf in that of a position. -/
def decomposePosition (position : Nat) : Nat × Nat × Nat :=
  (asU32 (position / 2 ^ shardHeight),
    position / 2 ^ subshardHeight % 256,
    position % 256)

def physicalRowIndex {ε : Type} (mode : Arithmetic)
    (shardIndex subshardIndex windowStartShard : Nat) : Outcome ε Nat := do
  let offset <- mode.sub 32 shardIndex windowStartShard
  return offset * subshardsPerShard + subshardIndex

structure CapData where
  shardRoots : List Hash

structure ShardSubRoots where
  roots : List Hash

/-- The payload a client downloads before it queries. -/
structure BroadcastData where
  cap : CapData
  subshardRoots : List ShardSubRoots
  windowStartShard : Nat
  windowShardCount : Nat
  anchorHeight : Nat

theorem decomposePosition_of_lt {position : Nat} (h : position < 2 ^ 32) :
    decomposePosition position =
      (position / 2 ^ 16, position / 2 ^ 8 % 256, position % 256) := by
  have hshard : position / 2 ^ 16 < 2 ^ 32 := by lia
  rw [decomposePosition, shardHeight, subshardHeight, asU32_of_lt hshard]

end Witness
end SpendabilityPir
