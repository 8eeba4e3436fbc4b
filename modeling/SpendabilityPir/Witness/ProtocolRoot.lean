import SpendabilityPir.Witness.BroadcastCoverage

/-!
# The protocol root

The protocol's tree has all note commitments of the chain from position 0 on and the
empty leaf at every other position.  A tree database holds the commitments from its
offset on and one root for each shard before; when these are the roots of that shard's
commitments, what it hashes are the nodes of the protocol's tree.
-/

namespace SpendabilityPir
namespace Witness

open Foundation

/-!
## Trees over nodes
-/

section Protocol

variable (M : MerkleHashOrchard)

def protocolLeaf (commitments : List Hash) (position : Nat) : Hash :=
  commitments.getD position (M.toBytes M.emptyLeaf)

/-- The node of the protocol's tree at a level and index, as hashing computes it. -/
def protocolRoot (commitments : List Hash) (level index : Nat) : Option Hash :=
  rootAt M 0 (fun position => some (protocolLeaf M commitments position)) level index

def EncodesNodes (commitments : List Hash) (nodes : Nat -> M.Node) : Prop :=
  forall position, M.fromBytes (protocolLeaf M commitments position) = some (nodes position)

/-- Each shard before the window has the root of its commitments prefetched. -/
def PrefetchedTrue (before prefetched : List Hash) : Prop :=
  forall i, i < before.length / shardLeaves -> exists root,
    prefetched[i]? = some root ∧
      rootAt M 0 (fun position => before[position]?) shardHeight i = some root

end Protocol

variable {M : MerkleHashOrchard}

theorem hashCombine_of_fromBytes (level : Nat) {left right : Hash} {l r : M.Node}
    (hl : M.fromBytes left = some l) (hr : M.fromBytes right = some r) :
    hashCombine M level left right = some (M.toBytes (M.combine level l r)) := by
  rw [hashCombine, hl, hr]
  rfl

theorem protocolRoot_succ (commitments : List Hash) (level index : Nat) :
    protocolRoot M commitments (level + 1) index =
      combineRoots M level (protocolRoot M commitments level (2 * index))
        (protocolRoot M commitments level (2 * index + 1)) := by
  rw [protocolRoot, rootAt, MerkleTree.node_succ, Nat.zero_add]
  rfl

theorem protocolRoot_decodes {commitments : List Hash} {nodes : Nat -> M.Node}
    (h : EncodesNodes M commitments nodes) (level index : Nat) :
    exists root, protocolRoot M commitments level index = some root ∧
      M.fromBytes root = some (MerkleTree.node M.combine 0 nodes level index) := by
  induction level generalizing index with
  | zero => exact ⟨_, rfl, h index⟩
  | succ level ih =>
      rcases ih (2 * index) with ⟨left, hleft, hl⟩
      rcases ih (2 * index + 1) with ⟨right, hright, hr⟩
      refine ⟨_, ?_, M.fromBytes_toBytes _⟩
      rw [protocolRoot_succ, hleft, hright, combineRoots_some,
        hashCombine_of_fromBytes level hl hr, MerkleTree.node_succ, Nat.zero_add]

theorem protocolRoot_encodes {commitments : List Hash} {nodes : Nat -> M.Node}
    (h : EncodesNodes M commitments nodes) (level index : Nat) :
    protocolRoot M commitments (level + 1) index =
      some (M.toBytes (MerkleTree.node M.combine 0 nodes (level + 1) index)) := by
  rcases protocolRoot_decodes h level (2 * index) with ⟨left, hleft, hl⟩
  rcases protocolRoot_decodes h level (2 * index + 1) with ⟨right, hright, hr⟩
  rw [protocolRoot_succ, hleft, hright, combineRoots_some,
    hashCombine_of_fromBytes level hl hr, MerkleTree.node_succ, Nat.zero_add]

theorem protocolLeaf_of_ge {commitments : List Hash} {position : Nat}
    (h : commitments.length ≤ position) :
    protocolLeaf M commitments position = emptyRoots M 0 :=
  List.getD_eq_default _ _ h

theorem protocolLeaf_of_lt {before after : List Hash} {position : Nat}
    (h : position < before.length) :
    some (protocolLeaf M (before ++ after) position) = before[position]? := by
  rw [protocolLeaf, List.getD_append _ _ _ _ h, List.getD_eq_getElem?_getD,
    List.getElem?_eq_getElem h]
  rfl

namespace CommitmentTreeDb

/-!
## The nodes of the database's tree
-/

theorem leafNode_eq_protocolLeaf {t : CommitmentTreeDb} {before : List Hash}
    (hoffset : t.leafOffset = before.length) {position : Nat}
    (h : before.length ≤ position) :
    t.leafNode M position = some (protocolLeaf M (before ++ t.leaves) position) := by
  by_cases hlocal : position < t.treeSize
  · rw [leafNode, leafAt_of_ge (by lia), hoffset, protocolLeaf,
      List.getD_append_right _ _ _ _ h]
    rfl
  · have hpast : (before ++ t.leaves).length ≤ position := by
      rw [treeSize] at hlocal
      rw [List.length_append]
      lia
    rw [leafNode_of_ge (Nat.le_of_not_lt hlocal), protocolLeaf_of_ge hpast]

/-- The shard roots of the database are the protocol's nodes of their level. -/
theorem shardNode_eq_protocolRoot {t : CommitmentTreeDb} {before : List Hash}
    (haligned : t.leafOffset % shardLeaves = 0) (hfits : t.FitsShardIndex)
    (hoffset : t.leafOffset = before.length)
    (htrue : PrefetchedTrue M before t.prefetchedShardRoots) (i : Nat) :
    t.shardNode M i = protocolRoot M (before ++ t.leaves) shardHeight i := by
  have hstart := leafOffset_eq haligned hfits
  have hheight : 2 ^ shardHeight = shardLeaves := rfl
  unfold shardNode protocolRoot
  split
  · next hbefore =>
      have hi : i < before.length / shardLeaves := by
        rw [← hoffset, ← windowStartShard_eq hfits]
        exact hbefore
      have hend : (i + 1) * shardLeaves ≤ before.length := by
        rw [← hoffset, hstart]
        exact Nat.mul_le_mul_right _ hbefore
      rcases htrue i hi with ⟨root, hprefetched, hroot⟩
      rw [prefetchedRoot, List.getD_eq_getElem?_getD, hprefetched, Option.getD_some, ← hroot]
      apply MerkleTree.node_congr
      intro position _ hposition
      rw [hheight] at hposition
      exact (protocolLeaf_of_lt (Nat.lt_of_lt_of_le hposition hend)).symm
  · next hwindow =>
      apply MerkleTree.node_congr
      intro position hposition _
      apply leafNode_eq_protocolLeaf hoffset
      rw [← hoffset, hstart]
      rw [hheight] at hposition
      exact Nat.le_trans (Nat.mul_le_mul_right _ (Nat.le_of_not_lt hwindow)) hposition

theorem populatedShards_eq_ceil {t : CommitmentTreeDb} (h : t.FitsShardIndex) :
    t.populatedShards = (t.treeSize + (shardLeaves - 1)) / shardLeaves := by
  have hshard : shardLeaves = 65536 := rfl
  rw [FitsShardIndex, hshard] at h
  unfold populatedShards
  rw [hshard]
  split
  · next hzero =>
      rw [hzero]
  · rw [asU32_of_lt (by lia)]
    lia

variable {mode : Arithmetic} {xxh64 : List UInt8 -> Nat -> UInt64}

/-- In every history from an offset below which the prefetched roots are true, the root
and the shard roots are nodes of the protocol's tree. -/
theorem treeRoot_protocolRoot {before prefetched : List Hash}
    (haligned : before.length % shardLeaves = 0)
    (htrue : PrefetchedTrue M before prefetched) {ops : List TreeOp}
    {t : CommitmentTreeDb}
    (hrun : Run (TreeStep M mode xxh64) (withOffset before.length prefetched) ops t)
    (hsize : t.treeSize ≤ 2 ^ 32) :
    t.treeRoot M = protocolRoot M (before ++ t.leaves) treeDepth 0 ∧
    t.shardRoots M =
      (List.range ((t.treeSize + (shardLeaves - 1)) / shardLeaves)).mapM
        (fun i => (protocolRoot M (before ++ t.leaves) shardHeight i).map (Prod.mk i)) ∧
    forall nodes, EncodesNodes M (before ++ t.leaves) nodes ->
      t.treeRoot M =
        some (M.toBytes (MerkleTree.node M.combine 0 nodes treeDepth 0)) ∧
      t.shardRoots M =
        some ((List.range ((t.treeSize + (shardLeaves - 1)) / shardLeaves)).map
          (fun i => (i, M.toBytes (MerkleTree.node M.combine 0 nodes shardHeight i)))) := by
  have hinv := treeInvariant_history haligned hrun
  have halignedTree : t.leafOffset % shardLeaves = 0 := by
    rw [hinv.leafOffset]
    exact haligned
  have hfits := fitsShardIndex_of_le hsize
  have hshard : forall i,
      t.shardNode M i = protocolRoot M (before ++ t.leaves) shardHeight i := by
    apply shardNode_eq_protocolRoot halignedTree hfits hinv.leafOffset
    rw [hinv.prefetched]
    exact htrue
  have hroot : t.treeRoot M = protocolRoot M (before ++ t.leaves) treeDepth 0 := by
    have hstack := MerkleTree.node_add (combineRoots M) 0
      (fun position => some (protocolLeaf M (before ++ t.leaves) position)) shardHeight
      shardHeight 0
    rw [Nat.zero_add] at hstack
    rw [treeRoot_eq halignedTree hsize, funext hshard]
    exact hstack.symm
  have hshards : t.shardRoots M =
      (List.range ((t.treeSize + (shardLeaves - 1)) / shardLeaves)).mapM
        (fun i => (protocolRoot M (before ++ t.leaves) shardHeight i).map (Prod.mk i)) := by
    rw [shardRoots_eq, populatedShards_eq_ceil hfits]
    apply mapM_congr
    intro i _
    rw [hshard]
  refine ⟨hroot, hshards, ?_⟩
  intro nodes hnodes
  constructor
  · rw [hroot]
    exact protocolRoot_encodes hnodes (treeDepth - 1) 0
  · rw [hshards]
    apply mapM_range_eq_some
    · rw [List.length_map, List.length_range]
    · intro i hi
      have hnode := protocolRoot_encodes hnodes (shardHeight - 1) i
      rw [List.getElem?_map, List.getElem?_range hi]
      exact congrArg (Option.map (Prod.mk i)) hnode.symm

/-- A shard of empty leaves before the window, and one block in it. -/
theorem treeRoot_protocolRoot_emptyShard :
    let before := List.replicate shardLeaves (emptyRoots sampleHash 0)
    let t := (withOffset before.length [emptyRoots sampleHash shardHeight]).appendCommitments
      1 (ByteVec.zeros 32) [ByteVec.zeros 32]
    t.treeRoot sampleHash =
      protocolRoot sampleHash (before ++ [ByteVec.zeros 32]) treeDepth 0 := by
  intro before t
  have hlen : before.length = shardLeaves := List.length_replicate
  have haligned : before.length % shardLeaves = 0 := by
    rw [hlen, Nat.mod_self]
  have htrue : PrefetchedTrue sampleHash before [emptyRoots sampleHash shardHeight] := by
    intro i hi
    have hheight : 2 ^ shardHeight = shardLeaves := rfl
    rw [hlen, Nat.div_self (by decide), Nat.lt_one_iff] at hi
    refine ⟨emptyRoots sampleHash shardHeight, ?_, ?_⟩
    · rw [hi]
      rfl
    · have hempty : rootAt sampleHash 0 (fun position => before[position]?) shardHeight i =
          some (emptyRoots sampleHash (0 + shardHeight)) := by
        apply rootAt_empty
        intro position _ hposition
        rw [hi, hheight] at hposition
        exact List.getElem?_replicate_of_lt (by lia)
      rw [Nat.zero_add] at hempty
      exact hempty
  have hsize : t.treeSize ≤ 2 ^ 32 := by
    have hshard : shardLeaves = 65536 := rfl
    show before.length + 1 ≤ 2 ^ 32
    rw [hlen, hshard]
    decide
  have hrun : Run (TreeStep sampleHash .checked (fun _ _ => 0))
      (withOffset before.length [emptyRoots sampleHash shardHeight])
      [.appendCommitments 1 (ByteVec.zeros 32) [ByteVec.zeros 32]] t :=
    Run.snoc (.nil _) (.appendCommitments _ _ _ _)
  exact (treeRoot_protocolRoot haligned htrue hrun hsize).left

end CommitmentTreeDb
end Witness
end SpendabilityPir
