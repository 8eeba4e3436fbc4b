import SpendabilityPir.Witness.SubtreeRoots

/-!
# The commitment tree database

Leaves in append order from an offset on, block records for rollback, prefetched
roots for the shards before the offset, and a cache of sub-shard roots.  Shard
indices are 32-bit and wrap as in a release build.
-/

namespace SpendabilityPir
namespace Witness

open Foundation

structure BlockRecord where
  height : Nat
  hash : ByteVec 32
  numCommitments : Nat
deriving DecidableEq

structure CommitmentTreeDb where
  leaves : List Hash
  blocks : List BlockRecord
  leafOffset : Nat
  prefetchedShardRoots : List Hash
  ssRootCache : Fin l0DbRows -> Option Hash

namespace CommitmentTreeDb

def withOffset (leafOffset : Nat) (prefetchedShardRoots : List Hash) :
    CommitmentTreeDb :=
  { leaves := []
    blocks := []
    leafOffset := leafOffset
    prefetchedShardRoots := prefetchedShardRoots
    ssRootCache := fun _ => none }

def new : CommitmentTreeDb := withOffset 0 []

def treeSize (t : CommitmentTreeDb) : Nat := t.leafOffset + t.leaves.length

def latestHeight (t : CommitmentTreeDb) : Option Nat :=
  t.blocks.getLast?.map BlockRecord.height

def latestBlockHash (t : CommitmentTreeDb) : Option (ByteVec 32) :=
  t.blocks.getLast?.map BlockRecord.hash

def populatedShards (t : CommitmentTreeDb) : Nat :=
  if t.treeSize = 0 then 0 else asU32 ((t.treeSize - 1) / shardLeaves + 1)

def windowStartShard (t : CommitmentTreeDb) : Nat :=
  asU32 (t.leafOffset / shardLeaves)

def localShardCount (t : CommitmentTreeDb) : Nat :=
  if t.leaves.isEmpty then 0
  else
    let firstLocalShard := t.windowStartShard
    let lastLocalShard := asU32 ((t.treeSize - 1) / shardLeaves)
    asU32 (wrappingSubU32 lastLocalShard firstLocalShard + 1)

def windowShardCount (t : CommitmentTreeDb) : Nat :=
  min t.localShardCount l0MaxShards

/-!
## Mutation
-/

/-- Forget the cached roots of the slots from first to last. -/
def clearSlots (cache : Fin l0DbRows -> Option Hash) (first last : Nat) :
    Fin l0DbRows -> Option Hash :=
  fun slot => if first ≤ slot.val ∧ slot.val ≤ last then none else cache slot

def appendCommitments (t : CommitmentTreeDb) (height : Nat) (hash : ByteVec 32)
    (commitments : List Hash) : CommitmentTreeDb :=
  let record : BlockRecord :=
    { height := height, hash := hash, numCommitments := asU32 commitments.length }
  if commitments.isEmpty then
    { t with blocks := t.blocks ++ [record] }
  else
    let leaves := t.leaves ++ commitments
    let firstDirty := t.leaves.length / subshardLeaves
    let lastDirty := (leaves.length - 1) / subshardLeaves
    { t with
      leaves := leaves
      blocks := t.blocks ++ [record]
      ssRootCache := clearSlots t.ssRootCache firstDirty (min lastDirty (l0DbRows - 1)) }

@[simp] theorem leaves_appendCommitments (t : CommitmentTreeDb) (height : Nat)
    (hash : ByteVec 32) (commitments : List Hash) :
    (t.appendCommitments height hash commitments).leaves = t.leaves ++ commitments := by
  unfold appendCommitments
  split
  · next hempty =>
      rw [List.isEmpty_iff.mp hempty, List.append_nil]
  · rfl

@[simp] theorem blocks_appendCommitments (t : CommitmentTreeDb) (height : Nat)
    (hash : ByteVec 32) (commitments : List Hash) :
    (t.appendCommitments height hash commitments).blocks = t.blocks ++
      [{ height := height, hash := hash, numCommitments := asU32 commitments.length }] := by
  unfold appendCommitments
  split <;> rfl

@[simp] theorem leafOffset_appendCommitments (t : CommitmentTreeDb) (height : Nat)
    (hash : ByteVec 32) (commitments : List Hash) :
    (t.appendCommitments height hash commitments).leafOffset = t.leafOffset := by
  unfold appendCommitments
  split <;> rfl

@[simp] theorem prefetchedShardRoots_appendCommitments (t : CommitmentTreeDb)
    (height : Nat) (hash : ByteVec 32) (commitments : List Hash) :
    (t.appendCommitments height hash commitments).prefetchedShardRoots =
      t.prefetchedShardRoots := by
  unfold appendCommitments
  split <;> rfl

/-- Pop the blocks above a height, newest first, and count their commitments. -/
def popAbove (targetHeight : Nat) : List BlockRecord -> Nat -> List BlockRecord × Nat
  | [], toRemove => ([], toRemove)
  | last :: rest, toRemove =>
      if last.height > targetHeight then
        popAbove targetHeight rest (toRemove + last.numCommitments)
      else (last :: rest, toRemove)

/-- Roll back all blocks with height strictly greater than a target. -/
def rollbackTo (t : CommitmentTreeDb) (targetHeight : Nat) : CommitmentTreeDb :=
  let popped := popAbove targetHeight t.blocks.reverse 0
  let newLen := t.leaves.length - popped.2
  let frontierSlot := if newLen = 0 then 0 else (newLen - 1) / subshardLeaves
  { t with
    leaves := t.leaves.take newLen
    blocks := popped.1.reverse
    ssRootCache := clearSlots t.ssRootCache frontierSlot (l0DbRows - 1) }

/-!
## Leaf and root queries
-/

section Hashing

variable (M : MerkleHashOrchard)

/-- The leaf at a global position; the empty leaf before the window and past the
frontier. -/
def leafAt (t : CommitmentTreeDb) (globalPos : Nat) : Hash :=
  if globalPos ≥ t.leafOffset ∧ globalPos - t.leafOffset < t.leaves.length then
    t.leaves.getD (globalPos - t.leafOffset) (emptyRoots M 0)
  else emptyRoots M 0

def subshardLeavesOf (t : CommitmentTreeDb) (shardIdx subshardIdx : Nat) : List Hash :=
  (List.range subshardLeaves).map
    (fun i => leafAt M t (shardIdx * shardLeaves + subshardIdx * subshardLeaves + i))

/-- The root of a sub-shard, where one past the frontier is not hashed. -/
def subshardRootOf (t : CommitmentTreeDb) (shardIdx ss : Nat) : Option Hash :=
  if shardIdx * shardLeaves + ss * subshardLeaves ≥ t.treeSize then
    some (emptyRoots M subshardHeight)
  else completeSubtreeRoot M (t.subshardLeavesOf M shardIdx ss) 0

def subshardRoots (t : CommitmentTreeDb) (shardIdx : Nat) : Option (List Hash) :=
  (List.range subshardsPerShard).mapM (t.subshardRootOf M shardIdx)

def prefetchedRoot (t : CommitmentTreeDb) (i : Nat) : Hash :=
  t.prefetchedShardRoots.getD i (emptyRoots M shardHeight)

def shardRoots (t : CommitmentTreeDb) : Option (List (Nat × Hash)) :=
  (List.range t.populatedShards).mapM (fun i =>
    if i < t.windowStartShard then some (i, t.prefetchedRoot M i)
    else do
      let ssRoots <- t.subshardRoots M i
      let root <- completeSubtreeRoot M ssRoots subshardHeight
      return (i, root))

def treeRoot (t : CommitmentTreeDb) : Option Hash :=
  if t.treeSize = 0 then some (emptyRoots M treeDepth)
  else do
    let shardRoots <- t.shardRoots M
    sparseSubtreeRoot M (shardRoots.map Prod.snd) (2 ^ shardHeight) shardHeight

/-!
## Broadcast and PIR database
-/

def readCache (cache : Fin l0DbRows -> Option Hash) (slot : Nat) : Option Hash :=
  if h : slot < l0DbRows then cache ⟨slot, h⟩ else none

def writeCache (cache : Fin l0DbRows -> Option Hash) (slot : Nat) (root : Hash) :
    Fin l0DbRows -> Option Hash :=
  fun i => if i.val = slot then some root else cache i

/-- The state of the loop over the sub-shards of one shard. -/
structure ShardBuild where
  cache : Fin l0DbRows -> Option Hash
  db : List UInt8
  ssRoots : List Hash

/-- Write a sub-shard's leaves and take its root from the cache, or hash it and
cache it. -/
def buildSubshard (t : CommitmentTreeDb) (i shardIdx : Nat) (st : ShardBuild)
    (ss : Nat) : Option ShardBuild :=
  let cacheSlot := i * subshardsPerShard + ss
  let leaves := t.subshardLeavesOf M shardIdx ss
  let db := st.db ++ leaves.flatMap List.Vector.toList
  if shardIdx * shardLeaves + ss * subshardLeaves ≥ t.treeSize then
    some { st with db := db, ssRoots := st.ssRoots ++ [emptyRoots M subshardHeight] }
  else
    match readCache st.cache cacheSlot with
    | some cached => some { st with db := db, ssRoots := st.ssRoots ++ [cached] }
    | none =>
        match completeSubtreeRoot M leaves 0 with
        | none => none
        | some root =>
            some { cache := writeCache st.cache cacheSlot root
                   db := db
                   ssRoots := st.ssRoots ++ [root] }

/-- The state of the loop over the shards of the window. -/
structure WindowBuild where
  cache : Fin l0DbRows -> Option Hash
  db : List UInt8
  capRoots : List Hash
  broadcastSs : List ShardSubRoots

def buildShard (t : CommitmentTreeDb) (st : WindowBuild) (i : Nat) :
    Option WindowBuild := do
  let shardIdx := asU32 (t.windowStartShard + i)
  let shard <- (List.range subshardsPerShard).foldlM (t.buildSubshard M i shardIdx)
    { cache := st.cache, db := st.db, ssRoots := [] }
  let shardRoot <- completeSubtreeRoot M shard.ssRoots subshardHeight
  return {
    cache := shard.cache
    db := shard.db
    capRoots := st.capRoots ++ [shardRoot]
    broadcastSs := st.broadcastSs ++ [{ roots := shard.ssRoots }] }

def resize (len : Nat) (bytes : List UInt8) : List UInt8 :=
  bytes.take len ++ List.replicate (len - bytes.length) 0

/-- Build the PIR database bytes and the broadcast payload in a single pass, filling
the cache; `none` is a panic on a leaf that is not a canonical encoding. -/
def buildPirDbAndBroadcast (t : CommitmentTreeDb) (anchorHeight : Nat) :
    Option (CommitmentTreeDb × List UInt8 × BroadcastData) := do
  let capRoots := (List.range t.windowStartShard).map (t.prefetchedRoot M)
  let st <- (List.range t.windowShardCount).foldlM (t.buildShard M)
    { cache := t.ssRootCache, db := [], capRoots := capRoots, broadcastSs := [] }
  return (
    { t with ssRootCache := st.cache },
    resize l0DbBytes st.db,
    { cap := { shardRoots := st.capRoots }
      subshardRoots := st.broadcastSs
      windowStartShard := t.windowStartShard
      windowShardCount := t.windowShardCount
      anchorHeight := anchorHeight })

end Hashing
end CommitmentTreeDb
end Witness
end SpendabilityPir
