import SpendabilityPir.Witness.TreeHistory

/-!
# Nodes of the commitment tree

The tree as it stands has the local leaves from the offset on, empty leaves past the
frontier, and the prefetched roots in place of the shards before the window.  The roots
a server hashes tier by tier are nodes of that tree.
-/

namespace SpendabilityPir
namespace Witness

open Foundation

namespace CommitmentTreeDb

section Nodes

variable (M : MerkleHashOrchard) (t : CommitmentTreeDb)

/-- The leaf at a position, as a tree over optional hashes reads it. -/
def leafNode (position : Nat) : Option Hash := some (leafAt M t position)

/-- The root of a shard: prefetched before the window, hashed from there on. -/
def shardNode (i : Nat) : Option Hash :=
  if i < t.windowStartShard then some (t.prefetchedRoot M i)
  else rootAt M 0 (t.leafNode M) shardHeight i

/-- The root of the subtree at a level and index. -/
def subtreeRoot (level index : Nat) : Option Hash :=
  if level < shardHeight then rootAt M 0 (t.leafNode M) level index
  else rootAt M shardHeight (t.shardNode M) (level - shardHeight) index

end Nodes

variable {M : MerkleHashOrchard}

theorem leafNode_of_ge {t : CommitmentTreeDb} {position : Nat}
    (h : t.treeSize ≤ position) : t.leafNode M position = some (emptyRoots M 0) := by
  rw [treeSize] at h
  rw [leafNode, leafAt_of_ge (by lia), List.getD_eq_default _ _ (by lia)]

theorem rootAt_leafNode_of_ge {t : CommitmentTreeDb} {height index : Nat}
    (h : t.treeSize ≤ index * 2 ^ height) :
    rootAt M 0 (t.leafNode M) height index = some (emptyRoots M height) := by
  have hempty : rootAt M 0 (t.leafNode M) height index =
      some (emptyRoots M (0 + height)) :=
    rootAt_empty (fun j hlo _ => leafNode_of_ge (Nat.le_trans h hlo))
  rw [Nat.zero_add] at hempty
  exact hempty

theorem length_subshardLeavesOf (t : CommitmentTreeDb) (shardIdx ss : Nat) :
    (t.subshardLeavesOf M shardIdx ss).length = subshardLeaves := by
  rw [subshardLeavesOf, List.length_map, List.length_range]

theorem subshard_start (shardIdx ss : Nat) :
    shardIdx * shardLeaves + ss * subshardLeaves =
      (shardIdx * subshardsPerShard + ss) * 2 ^ subshardHeight := by
  have hshard : shardLeaves = subshardsPerShard * subshardLeaves := rfl
  rw [Nat.add_mul, Nat.mul_assoc, hshard]
  rfl

theorem getElem?_subshardLeavesOf (t : CommitmentTreeDb) (shardIdx ss : Nat) {i : Nat}
    (hi : i < subshardLeaves) :
    (t.subshardLeavesOf M shardIdx ss)[i]? =
      t.leafNode M (shardIdx * shardLeaves + ss * subshardLeaves + i) := by
  rw [subshardLeavesOf, List.getElem?_map, List.getElem?_range hi]
  rfl

theorem rootAt_subshardLeavesOf (t : CommitmentTreeDb) (shardIdx ss : Nat) :
    rootAt M 0 (fun i => (t.subshardLeavesOf M shardIdx ss)[i]?) subshardHeight 0 =
      rootAt M 0 (t.leafNode M) subshardHeight (shardIdx * subshardsPerShard + ss) := by
  calc
    rootAt M 0 (fun i => (t.subshardLeavesOf M shardIdx ss)[i]?) subshardHeight 0 =
        rootAt M 0 (fun i => t.leafNode M
          ((shardIdx * subshardsPerShard + ss) * 2 ^ subshardHeight + i))
          subshardHeight 0 := by
      apply MerkleTree.node_congr
      intro i _ hi
      rw [Nat.zero_add, Nat.one_mul] at hi
      rw [getElem?_subshardLeavesOf t shardIdx ss hi, subshard_start]
    _ = rootAt M 0 (t.leafNode M) subshardHeight
          (shardIdx * subshardsPerShard + ss) := by
      rw [← Nat.add_zero (shardIdx * subshardsPerShard + ss)]
      exact MerkleTree.node_shift (combineRoots M) _ (fun _ => rfl) 0

theorem subshardRootOf_eq (t : CommitmentTreeDb) (shardIdx ss : Nat) :
    t.subshardRootOf M shardIdx ss =
      rootAt M 0 (t.leafNode M) subshardHeight (shardIdx * subshardsPerShard + ss) := by
  unfold subshardRootOf
  rw [subshard_start]
  split
  · next hpast => exact (rootAt_leafNode_of_ge hpast).symm
  · rw [completeSubtreeRoot_eq_rootAt (length_subshardLeavesOf t shardIdx ss),
      ← rootAt_subshardLeavesOf]

/-- Hashing the sub-shard roots of a shard gives its node of height 16. -/
theorem bind_subshardRoots (t : CommitmentTreeDb) (shardIdx : Nat) :
    (t.subshardRoots M shardIdx).bind
        (fun roots => completeSubtreeRoot M roots subshardHeight) =
      rootAt M 0 (t.leafNode M) shardHeight shardIdx := by
  calc
    (t.subshardRoots M shardIdx).bind
        (fun roots => completeSubtreeRoot M roots subshardHeight) =
        rootAt M subshardHeight (t.subshardRootOf M shardIdx) subshardHeight 0 :=
      bind_completeSubtreeRoot (n := subshardsPerShard) rfl
    _ = rootAt M subshardHeight (rootAt M 0 (t.leafNode M) subshardHeight)
          subshardHeight shardIdx :=
      MerkleTree.node_shift (combineRoots M) shardIdx (subshardRootOf_eq t shardIdx) 0
    _ = rootAt M 0 (t.leafNode M) shardHeight shardIdx := by
      have hstack := MerkleTree.node_add (combineRoots M) 0 (t.leafNode M)
        subshardHeight subshardHeight shardIdx
      rw [Nat.zero_add] at hstack
      exact hstack.symm

theorem windowShard_eq_some {t : CommitmentTreeDb} {i : Nat}
    {shard : List Hash × Hash} (h : t.windowShard M i = some shard) :
    t.subshardRoots M (asU32 (t.windowStartShard + i)) = some shard.1 ∧
      rootAt M 0 (t.leafNode M) shardHeight (asU32 (t.windowStartShard + i)) =
        some shard.2 := by
  rcases Option.bind_eq_some_iff.mp h with ⟨roots, hroots, hrest⟩
  rcases Option.bind_eq_some_iff.mp hrest with ⟨root, hroot, hpair⟩
  cases hpair
  refine ⟨hroots, ?_⟩
  rw [← bind_subshardRoots, hroots]
  exact hroot

/-!
## Canonical leaves
-/

def CanonicalLeaves (M : MerkleHashOrchard) (t : CommitmentTreeDb) : Prop :=
  forall leaf, leaf ∈ t.leaves -> Canonical M leaf

theorem canonical_leafAt {t : CommitmentTreeDb} (h : t.CanonicalLeaves M)
    (position : Nat) : Canonical M (leafAt M t position) := by
  unfold leafAt
  split
  · next hlocal =>
      rw [List.getD_eq_getElem?_getD, List.getElem?_eq_getElem hlocal.right]
      exact h _ (List.getElem_mem hlocal.right)
  · exact canonical_emptyRoots 0

theorem rootAt_leafNode_of_canonical {t : CommitmentTreeDb} (h : t.CanonicalLeaves M)
    (height index : Nat) :
    exists root, rootAt M 0 (t.leafNode M) height index = some root ∧
      Canonical M root := by
  apply rootAt_of_canonical
  intro position _ _
  exact ⟨_, rfl, canonical_leafAt h position⟩

theorem windowShard_of_canonical {t : CommitmentTreeDb} (h : t.CanonicalLeaves M)
    (i : Nat) : exists shard, t.windowShard M i = some shard := by
  rcases rootAt_leafNode_of_canonical h shardHeight (asU32 (t.windowStartShard + i)) with
    ⟨root, hroot, _⟩
  rw [← bind_subshardRoots] at hroot
  rcases Option.bind_eq_some_iff.mp hroot with ⟨roots, hroots, hcomplete⟩
  refine ⟨(roots, root), ?_⟩
  rw [windowShard, hroots]
  show (completeSubtreeRoot M roots subshardHeight >>= _) = _
  rw [hcomplete]
  rfl

/-- A tree over canonical leaves builds. -/
theorem build_of_canonical {t : CommitmentTreeDb} (hvalid : CacheValid M t)
    (h : t.CanonicalLeaves M) (anchorHeight : Nat) :
    exists t' db broadcast,
      t.buildPirDbAndBroadcast M anchorHeight = some (t', db, broadcast) := by
  have hall : exists shards,
      (List.range t.windowShardCount).mapM (t.windowShard M) = some shards :=
    mapM_isSome (fun i _ => windowShard_of_canonical h i)
  rcases hall with ⟨shards, hshards⟩
  rcases (buildPirDbAndBroadcast_eq hvalid anchorHeight).left shards hshards with
    ⟨cache, hbuild, _⟩
  exact ⟨_, _, _, hbuild⟩

/-!
## A tree grown by one block
-/

/-- An empty tree at an offset, after one block of equal commitments. -/
def grownTree (leafOffset count : Nat) : CommitmentTreeDb :=
  (withOffset leafOffset []).appendCommitments 1 (ByteVec.zeros 32)
    (List.replicate count (ByteVec.zeros 32))

theorem run_grownTree (M : MerkleHashOrchard) (mode : Arithmetic)
    (xxh64 : List UInt8 -> Nat -> UInt64) (leafOffset count : Nat) :
    Run (TreeStep M mode xxh64) (withOffset leafOffset [])
      [.appendCommitments 1 (ByteVec.zeros 32)
        (List.replicate count (ByteVec.zeros 32))]
      (grownTree leafOffset count) :=
  Run.snoc (.nil _) (.appendCommitments _ _ _ _)

theorem leaves_grownTree (leafOffset count : Nat) :
    (grownTree leafOffset count).leaves = List.replicate count (ByteVec.zeros 32) := by
  rw [grownTree, leaves_appendCommitments]
  rfl

theorem leafOffset_grownTree (leafOffset count : Nat) :
    (grownTree leafOffset count).leafOffset = leafOffset := by
  rw [grownTree, leafOffset_appendCommitments]
  rfl

theorem canonicalLeaves_grownTree (leafOffset count : Nat) :
    (grownTree leafOffset count).CanonicalLeaves sampleHash := by
  intro leaf hleaf
  rw [leaves_grownTree] at hleaf
  rw [(List.mem_replicate.mp hleaf).right]
  exact canonical_zeros

theorem cacheValid_grownTree {leafOffset : Nat} (count : Nat)
    (haligned : leafOffset % shardLeaves = 0) :
    CacheValid sampleHash (grownTree leafOffset count) :=
  (treeInvariant_history haligned
    (run_grownTree sampleHash .wrapping (fun _ _ => 0) leafOffset count)).cache

theorem build_grownTree {leafOffset : Nat} (count : Nat)
    (haligned : leafOffset % shardLeaves = 0) (anchorHeight : Nat) :
    exists t' db broadcast,
      (grownTree leafOffset count).buildPirDbAndBroadcast sampleHash anchorHeight =
        some (t', db, broadcast) :=
  build_of_canonical (cacheValid_grownTree count haligned)
    (canonicalLeaves_grownTree leafOffset count) anchorHeight

/-!
## A tree behind a prefetched shard
-/

def sampleShardRoot : Hash := ByteVec.ofBytes 32 [9]

def subshardBlock : List Hash := List.replicate 256 (ByteVec.ofBytes 32 [3])

/-- A full sub-shard, a block that is rolled back, and two leaves of the next sub-shard. -/
def offsetOps : List TreeOp :=
  [.appendCommitments 5 (ByteVec.ofBytes 32 [5]) subshardBlock,
    .appendCommitments 6 (ByteVec.ofBytes 32 [6]) [ByteVec.ofBytes 32 [8]],
    .rollbackTo 5,
    .appendCommitments 6 (ByteVec.ofBytes 32 [16])
      [ByteVec.ofBytes 32 [4], ByteVec.ofBytes 32 [7]]]

def offsetTree : CommitmentTreeDb :=
  ((((withOffset shardLeaves [sampleShardRoot]).appendCommitments 5 (ByteVec.ofBytes 32 [5])
    subshardBlock).appendCommitments 6 (ByteVec.ofBytes 32 [6])
      [ByteVec.ofBytes 32 [8]]).rollbackTo 5).appendCommitments 6 (ByteVec.ofBytes 32 [16])
    [ByteVec.ofBytes 32 [4], ByteVec.ofBytes 32 [7]]

theorem run_offsetTree :
    Run (TreeStep sampleHash .checked (fun _ _ => 0)) (withOffset shardLeaves [sampleShardRoot])
      offsetOps offsetTree :=
  ((((Run.nil _).snoc (.appendCommitments _ _ _ _)).snoc (.appendCommitments _ _ _ _)).snoc
    (.rollbackTo _ _)).snoc (.appendCommitments _ _ _ _)

theorem leaves_offsetTree : offsetTree.leaves =
    subshardBlock ++ [ByteVec.ofBytes 32 [4], ByteVec.ofBytes 32 [7]] := by
  decide +kernel

theorem treeSize_offsetTree : offsetTree.treeSize = 65794 := by
  rw [treeSize, leaves_offsetTree, List.length_append, subshardBlock, List.length_replicate]
  rfl

theorem canonicalLeaves_offsetTree : offsetTree.CanonicalLeaves sampleHash := by
  intro leaf hleaf
  rw [leaves_offsetTree] at hleaf
  rcases List.mem_append.mp hleaf with hblock | hnext
  · rw [(List.mem_replicate.mp hblock).right]
    exact canonical_sampleHash (by decide)
  · rcases List.mem_cons.mp hnext with hfirst | hsecond
    · rw [hfirst]
      exact canonical_sampleHash (by decide)
    · rw [List.mem_singleton.mp hsecond]
      exact canonical_sampleHash (by decide)

end CommitmentTreeDb
end Witness
end SpendabilityPir
