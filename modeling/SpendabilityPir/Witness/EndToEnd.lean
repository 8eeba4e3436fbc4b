import SpendabilityPir.Witness.BroadcastCoverage

/-!
# The witness service end to end

For a position in the window, the row of the built database and the broadcast that came
with it reconstruct a witness: its siblings are subtree roots of the server's tree and
its anchor root is the server's tree root.
-/

namespace SpendabilityPir
namespace Witness

open Foundation

namespace CommitmentTreeDb

variable {M : MerkleHashOrchard} {mode : Arithmetic}
variable {xxh64 : List UInt8 -> Nat -> UInt64}

/-!
## The queried row
-/

theorem slice_resize {len start n : Nat} {bytes : List UInt8}
    (hbytes : start + n ≤ bytes.length) (hlen : bytes.length ≤ len) :
    slice (resize len bytes) start n = slice bytes start n := by
  rw [resize, List.take_of_length_le hlen, slice_append_left _ _ hbytes]

theorem slice_db {t : CommitmentTreeDb} (haligned : t.leafOffset % shardLeaves = 0)
    (h : t.FitsShardIndex) {i ss : Nat} (hi : i < t.windowShardCount)
    (hss : ss < subshardsPerShard) :
    slice (resize l0DbBytes (t.windowRows M))
        ((i * subshardsPerShard + ss) * subshardRowBytes) subshardRowBytes =
      (t.subshardLeavesOf M (t.windowStartShard + i) ss).flatMap
        List.Vector.toList := by
  rcases length_windowRows_le (M := M) haligned h with ⟨hlength, hfits⟩
  have hrow : i * subshardsPerShard + ss < t.windowShardCount * subshardsPerShard := by
    have hstep : (i + 1) * subshardsPerShard ≤ t.windowShardCount * subshardsPerShard :=
      Nat.mul_le_mul_right _ hi
    rw [Nat.succ_mul] at hstep
    lia
  have hbytes : t.windowShardCount * shardLeaves * 32 =
      t.windowShardCount * subshardsPerShard * subshardRowBytes := by
    rw [Nat.mul_assoc, Nat.mul_assoc]
    rfl
  have hend : (i * subshardsPerShard + ss) * subshardRowBytes + subshardRowBytes ≤
      (t.windowRows M).length := by
    rw [hlength, hbytes, ← Nat.succ_mul]
    exact Nat.mul_le_mul_right _ hrow
  rw [slice_resize hend (by rw [hlength]; exact hfits), windowRows_eq haligned h,
    slice_flatMap_const (fun row => length_rowLeaves_bytes t row) _
      (by rw [List.length_range]; exact hrow),
    List.getElem_range, subshardLeavesOf_window haligned h]

theorem shard_in_window {t : CommitmentTreeDb}
    (haligned : t.leafOffset % shardLeaves = 0) (h : t.FitsShardIndex)
    {position : Nat} (hlo : t.leafOffset ≤ position) (hhi : position < t.treeSize) :
    t.windowStartShard ≤ position / 2 ^ 16 ∧
      position / 2 ^ 16 < t.windowStartShard + t.localShardCount := by
  have hshard : shardLeaves = 65536 := rfl
  have hoffset := leafOffset_eq haligned h
  have hcount := localShardCount_eq haligned h
  rw [hshard] at hoffset hcount
  rw [treeSize] at hhi
  rw [hcount]
  generalize t.windowStartShard = first at hoffset ⊢
  lia

theorem position_eq (position : Nat) :
    position / 2 ^ 16 * shardLeaves + position / 2 ^ 8 % 256 * subshardLeaves +
      position % 256 = position := by
  have hshard : shardLeaves = 65536 := rfl
  have hsubshard : subshardLeaves = 256 := rfl
  rw [hshard, hsubshard]
  lia

/-!
## The broadcast of a build
-/

theorem canonical_shardNode {t : CommitmentTreeDb} (hleaves : t.CanonicalLeaves M)
    (hprefetched : AllCanonical M t.prefetchedShardRoots) {i : Nat} {root : Hash}
    (h : t.shardNode M i = some root) : Canonical M root := by
  unfold shardNode at h
  split at h
  · cases h
    rw [prefetchedRoot, List.getD_eq_getElem?_getD]
    cases hroot : t.prefetchedShardRoots[i]? with
    | none => exact canonical_emptyRoots shardHeight
    | some root => exact hprefetched root (List.mem_of_getElem? hroot)
  · rcases rootAt_leafNode_of_canonical hleaves shardHeight i with
      ⟨node, hnode, hcanonical⟩
    rw [hnode] at h
    cases h
    exact hcanonical

theorem windowShard_roots {t : CommitmentTreeDb} (hleaves : t.CanonicalLeaves M)
    {i : Nat} {shard : List Hash × Hash} (h : t.windowShard M i = some shard) :
    shard.1.length = subshardsPerShard ∧ AllCanonical M shard.1 := by
  have hroots := (windowShard_eq_some h).left
  constructor
  · rw [length_mapM hroots, List.length_range]
  · intro node hnode
    rcases mem_mapM hroots hnode with ⟨ss, _, hroot⟩
    rw [subshardRootOf_eq] at hroot
    rcases rootAt_leafNode_of_canonical hleaves subshardHeight
      (asU32 (t.windowStartShard + i) * subshardsPerShard + ss) with
      ⟨root, hsome, hcanonical⟩
    rw [hsome] at hroot
    cases hroot
    exact hcanonical

theorem broadcastOf_wellFormed {t : CommitmentTreeDb}
    (haligned : t.leafOffset % shardLeaves = 0) (hsize : t.treeSize ≤ 2 ^ 32)
    (hleaves : t.CanonicalLeaves M) (hprefetched : AllCanonical M t.prefetchedShardRoots)
    {shards : List (List Hash × Hash)}
    (hshards : (List.range t.windowShardCount).mapM (t.windowShard M) = some shards)
    (anchorHeight : Nat) :
    (t.broadcastOf M shards anchorHeight).WellFormed M := by
  have hfits := fitsShardIndex_of_le hsize
  have hcap := cap_eq haligned hfits hshards anchorHeight
  have hshard : forall shard,
      shard ∈ (t.broadcastOf M shards anchorHeight).subshardRoots ->
      shard.roots.length = subshardsPerShard ∧ AllCanonical M shard.roots := by
    intro shard hmem
    rcases List.mem_map.mp hmem with ⟨pair, hpair, heq⟩
    rcases mem_mapM hshards hpair with ⟨i, _, hwindow⟩
    rw [← heq]
    exact windowShard_roots hleaves hwindow
  constructor
  · show (shards.map _).length = t.windowShardCount
    rw [List.length_map, length_mapM hshards, List.length_range]
  · intro shard hmem
    exact (hshard shard hmem).left
  · have hpopulated := populatedShards_le haligned hsize
    rw [populatedShards_eq haligned hfits] at hpopulated
    have hwindow : t.windowShardCount ≤ t.localShardCount := Nat.min_le_left _ _
    rw [length_mapM hcap, List.length_range]
    lia
  · intro shard hmem
    exact (hshard shard hmem).right
  · intro node hnode
    rcases mem_mapM hcap hnode with ⟨i, _, hroot⟩
    exact canonical_shardNode hleaves hprefetched hroot

theorem row_consistent {t : CommitmentTreeDb}
    (haligned : t.leafOffset % shardLeaves = 0) (hsize : t.treeSize ≤ 2 ^ 32)
    {shards : List (List Hash × Hash)}
    (hshards : (List.range t.windowShardCount).mapM (t.windowShard M) = some shards)
    (anchorHeight : Nat) {i ss : Nat} (hi : i < t.windowShardCount)
    (hss : ss < subshardsPerShard) {shard : ShardSubRoots}
    (hshard : (t.broadcastOf M shards anchorHeight).subshardRoots[i]? = some shard) :
    (forall k, k < subshardsPerShard -> shard.roots[k]? =
      rootAt M 0 (t.leafNode M) subshardHeight
        ((t.windowStartShard + i) * subshardsPerShard + k)) ∧
    treeOver M 0 (t.subshardLeavesOf M (t.windowStartShard + i) ss) subshardHeight 0 =
      shard.roots[ss]? ∧
    treeOver M subshardHeight shard.roots subshardHeight 0 =
      (padCap M (t.broadcastOf M shards anchorHeight).cap.shardRoots)[
        t.windowStartShard + i]? := by
  have hfits := fitsShardIndex_of_le hsize
  have hpopulated := populatedShards_le haligned hsize
  rw [populatedShards_eq haligned hfits] at hpopulated
  have hwindow : t.windowShardCount ≤ t.localShardCount := Nat.min_le_left _ _
  have hcap := cap_eq haligned hfits hshards anchorHeight
  have hcapLen := length_mapM hcap
  rw [List.length_range] at hcapLen
  have hmap : (shards.map (fun pair => ({ roots := pair.1 } : ShardSubRoots)))[i]? =
      some shard := hshard
  rw [List.getElem?_map] at hmap
  rcases Option.map_eq_some_iff.mp hmap with ⟨pair, hpair, heq⟩
  rw [getElem?_mapM_range hshards hi] at hpair
  rcases windowShard_eq_some hpair with ⟨hroots, hroot⟩
  rw [windowShardIdx_eq haligned hfits hi] at hroots hroot
  rw [← heq]
  have hsubshard : forall k, k < subshardsPerShard -> pair.1[k]? =
      rootAt M 0 (t.leafNode M) subshardHeight
        ((t.windowStartShard + i) * subshardsPerShard + k) := by
    intro k hk
    rw [getElem?_mapM_range hroots hk, subshardRootOf_eq]
  refine ⟨hsubshard, ?_, ?_⟩
  · rw [hsubshard ss hss]
    exact rootAt_subshardLeavesOf t _ ss
  · have hlen : pair.1.length = 2 ^ subshardHeight := by
      rw [length_mapM hroots, List.length_range]
      rfl
    have hcomplete := bind_subshardRoots (M := M) t (t.windowStartShard + i)
    rw [hroots] at hcomplete
    have htree : completeSubtreeRoot M pair.1 subshardHeight =
        treeOver M subshardHeight pair.1 subshardHeight 0 :=
      completeSubtreeRoot_eq_rootAt hlen
    rw [← htree, getElem?_padCap _ (by lia), paddedLeaf, if_pos (by lia),
      getElem?_mapM_range hcap (by lia), shardNode, if_neg (by lia)]
    exact hcomplete

/-!
## The siblings of a position
-/

theorem rowSibling_eq (t : CommitmentTreeDb) (position : Nat) {level : Nat}
    (hlevel : level < subshardHeight) :
    treeOver M 0 (t.subshardLeavesOf M (position / 2 ^ 16) (position / 2 ^ 8 % 256)) level
        ((position % 256 / 2 ^ level) ^^^ 1) =
      rootAt M 0 (t.leafNode M) level ((position / 2 ^ level) ^^^ 1) := by
  have hwindow : position =
      (position / 2 ^ 16 * subshardsPerShard + position / 2 ^ 8 % 256) *
        2 ^ subshardHeight + position % 256 := by
    rw [← subshard_start, position_eq]
  have hleaf : position % 256 < 2 ^ subshardHeight := Nat.mod_lt _ (by decide)
  have htier : treeOver M 0
        (t.subshardLeavesOf M (position / 2 ^ 16) (position / 2 ^ 8 % 256)) level
        ((position % 256 / 2 ^ level) ^^^ 1) =
      rootAt M 0 (t.leafNode M) level
        ((((position / 2 ^ 16 * subshardsPerShard + position / 2 ^ 8 % 256) *
          2 ^ subshardHeight + position % 256) / 2 ^ level) ^^^ 1) := by
    apply MerkleTree.node_sibling_window (combineRoots M) hlevel hleaf
    intro j hj
    rw [getElem?_subshardLeavesOf t _ _ hj, subshard_start]
  rw [htier, ← hwindow]

theorem div_two_pow_sub (position : Nat) {base level : Nat} (h : base ≤ level) :
    position / 2 ^ level = position / 2 ^ base / 2 ^ (level - base) := by
  have hsplit : base + (level - base) = level := by lia
  rw [Nat.div_div_eq_div_mul, ← Nat.pow_add, hsplit]

theorem shardSibling_eq (t : CommitmentTreeDb) (position : Nat) {roots : List Hash}
    (hroots : forall k, k < subshardsPerShard -> roots[k]? =
      rootAt M 0 (t.leafNode M) subshardHeight
        (position / 2 ^ 16 * subshardsPerShard + k))
    {level : Nat} (hlo : subshardHeight ≤ level) (hhi : level < shardHeight) :
    treeOver M subshardHeight roots (level - subshardHeight)
        ((position / 2 ^ 8 % 256 / 2 ^ (level - subshardHeight)) ^^^ 1) =
      rootAt M 0 (t.leafNode M) level ((position / 2 ^ level) ^^^ 1) := by
  have hheight : shardHeight = subshardHeight + subshardHeight := rfl
  have hlow : level - subshardHeight < subshardHeight := by lia
  have hsubshard : position / 2 ^ 8 % 256 < 2 ^ subshardHeight := Nat.mod_lt _ (by decide)
  have hindex : position / 2 ^ 16 * 2 ^ subshardHeight + position / 2 ^ 8 % 256 =
      position / 2 ^ subshardHeight := by
    have hsub8 : subshardHeight = 8 := rfl
    rw [hsub8]
    lia
  have htier : treeOver M subshardHeight roots (level - subshardHeight)
        ((position / 2 ^ 8 % 256 / 2 ^ (level - subshardHeight)) ^^^ 1) =
      rootAt M subshardHeight (rootAt M 0 (t.leafNode M) subshardHeight)
        (level - subshardHeight)
        (((position / 2 ^ 16 * 2 ^ subshardHeight + position / 2 ^ 8 % 256) /
          2 ^ (level - subshardHeight)) ^^^ 1) :=
    MerkleTree.node_sibling_window (combineRoots M) hlow hsubshard hroots
  have hstack := MerkleTree.node_add (combineRoots M) 0 (t.leafNode M)
    subshardHeight (level - subshardHeight) ((position / 2 ^ level) ^^^ 1)
  have hsum : subshardHeight + (level - subshardHeight) = level := by lia
  rw [hsum, Nat.zero_add] at hstack
  rw [htier, hindex, ← div_two_pow_sub position hlo]
  exact hstack.symm

theorem capSibling_eq (t : CommitmentTreeDb) {position : Nat}
    (hposition : position < 2 ^ 32) {cap : List Hash}
    (hcap : forall i, i < 2 ^ shardHeight -> cap[i]? = t.shardNode M i) {level : Nat}
    (hlo : shardHeight ≤ level) (hhi : level < treeDepth) :
    treeOver M shardHeight cap (level - shardHeight)
        ((position / 2 ^ 16 / 2 ^ (level - shardHeight)) ^^^ 1) =
      rootAt M shardHeight (t.shardNode M) (level - shardHeight)
        ((position / 2 ^ level) ^^^ 1) := by
  have hheight : treeDepth = shardHeight + shardHeight := rfl
  have hlow : level - shardHeight < shardHeight := by lia
  have hshardIdx : position / 2 ^ 16 < 2 ^ shardHeight := by
    rw [Nat.div_lt_iff_lt_mul (by decide)]
    exact hposition
  have htier : treeOver M shardHeight cap (level - shardHeight)
        ((position / 2 ^ 16 / 2 ^ (level - shardHeight)) ^^^ 1) =
      rootAt M shardHeight (t.shardNode M) (level - shardHeight)
        (((0 * 2 ^ shardHeight + position / 2 ^ 16) / 2 ^ (level - shardHeight)) ^^^ 1) := by
    apply MerkleTree.node_sibling_window (combineRoots M) hlow hshardIdx
    intro i hi
    rw [Nat.zero_mul, Nat.zero_add]
    exact hcap i hi
  rw [htier, Nat.zero_mul, Nat.zero_add, div_two_pow_sub position hlo]
  rfl

theorem tierSibling_eq {t : CommitmentTreeDb} {position : Nat} {roots cap : List Hash}
    (hposition : position < 2 ^ 32)
    (hroots : forall k, k < subshardsPerShard -> roots[k]? =
      rootAt M 0 (t.leafNode M) subshardHeight
        (position / 2 ^ 16 * subshardsPerShard + k))
    (hcap : forall i, i < 2 ^ shardHeight -> cap[i]? = t.shardNode M i) {level : Nat}
    (hlevel : level < treeDepth) :
    tierSibling M (position / 2 ^ 16) (position / 2 ^ 8 % 256) (position % 256)
        (t.subshardLeavesOf M (position / 2 ^ 16) (position / 2 ^ 8 % 256)) roots cap
        level =
      t.subtreeRoot M level ((position / 2 ^ level) ^^^ 1) := by
  have hheight : shardHeight = subshardHeight + subshardHeight := rfl
  unfold tierSibling subtreeRoot
  by_cases hrow : level < subshardHeight
  · rw [if_pos hrow, if_pos (by lia)]
    exact rowSibling_eq t position hrow
  · by_cases hshard : level < shardHeight
    · rw [if_neg hrow, if_pos hshard, if_pos hshard]
      exact shardSibling_eq t position hroots (Nat.le_of_not_lt hrow) hshard
    · rw [if_neg hrow, if_neg hshard, if_neg hshard]
      exact capSibling_eq t hposition hcap (Nat.le_of_not_lt hshard) hlevel

theorem position_in_window {t : CommitmentTreeDb}
    (haligned : t.leafOffset % shardLeaves = 0) (hsize : t.treeSize ≤ 2 ^ 32)
    (hlocal : t.localShardCount ≤ l0MaxShards) {position : Nat}
    (hlo : t.leafOffset ≤ position) (hhi : position < t.treeSize) :
    t.windowStartShard ≤ position / 2 ^ 16 ∧
      position / 2 ^ 16 < t.windowStartShard + t.windowShardCount := by
  rw [windowShardCount, Nat.min_eq_left hlocal]
  exact shard_in_window haligned (fitsShardIndex_of_le hsize) hlo hhi

def positionRow (M : MerkleHashOrchard) (t : CommitmentTreeDb) (position : Nat) :
    List UInt8 :=
  (t.subshardLeavesOf M (position / 2 ^ 16) (position / 2 ^ 8 % 256)).flatMap
    List.Vector.toList

def rowOf (t : CommitmentTreeDb) (position : Nat) : Nat :=
  (position / 2 ^ 16 - t.windowStartShard) * subshardsPerShard + position / 2 ^ 8 % 256

theorem length_positionRow (t : CommitmentTreeDb) (position : Nat) :
    (t.positionRow M position).length = subshardRowBytes := by
  rw [positionRow, length_flatMap_const (fun leaf => leaf.toList_length),
    length_subshardLeavesOf]
  rfl

/-- A built database has the sub-shard of every position of the window in its row. -/
theorem slice_rowOf {t t' : CommitmentTreeDb} {anchorHeight : Nat} {db : List UInt8}
    {broadcast : BroadcastData} (haligned : t.leafOffset % shardLeaves = 0)
    (hvalid : CacheValid M t) (hfits : t.FitsShardIndex)
    (hbuild : t.buildPirDbAndBroadcast M anchorHeight = some (t', db, broadcast))
    {position : Nat} (hlo : t.windowStartShard ≤ position / 2 ^ 16)
    (hhi : position / 2 ^ 16 < t.windowStartShard + t.windowShardCount) :
    slice db (t.rowOf position * subshardRowBytes) subshardRowBytes =
      t.positionRow M position := by
  rcases build_tree_eq hvalid hbuild with ⟨_, _, _, _, _, hdb, _⟩
  have hidx : t.windowStartShard + (position / 2 ^ 16 - t.windowStartShard) =
      position / 2 ^ 16 := Nat.add_sub_cancel' hlo
  have hss : position / 2 ^ 8 % 256 < subshardsPerShard := Nat.mod_lt _ (by decide)
  have hrow := slice_db (M := M) haligned hfits (Nat.sub_lt_left_of_lt_add hlo hhi) hss
  rw [hidx, ← hdb] at hrow
  exact hrow

theorem physicalRowIndex_eq {t t' : CommitmentTreeDb} {anchorHeight : Nat}
    {db : List UInt8} {broadcast : BroadcastData}
    (hbuild : t.buildPirDbAndBroadcast M anchorHeight = some (t', db, broadcast))
    (clientMode : Arithmetic) {position : Nat}
    (hlo : t.windowStartShard ≤ position / 2 ^ 16) :
    (physicalRowIndex clientMode (position / 2 ^ 16) (position / 2 ^ 8 % 256)
      broadcast.windowStartShard : Outcome WitnessClientError Nat) =
        .ok (t.rowOf position) := by
  have hstart : broadcast.windowStartShard = t.windowStartShard := by
    rcases Option.bind_eq_some_iff.mp hbuild with ⟨_, _, hreturn⟩
    cases hreturn
    rfl
  rw [physicalRowIndex, hstart, Arithmetic.sub_of_le clientMode 32 hlo, ok_bind]
  rfl

theorem rowOf_lt {t : CommitmentTreeDb} {position : Nat}
    (hlo : t.windowStartShard ≤ position / 2 ^ 16)
    (hhi : position / 2 ^ 16 < t.windowStartShard + t.windowShardCount) :
    t.rowOf position < l0DbRows := by
  have hmax : t.windowShardCount ≤ l0MaxShards := Nat.min_le_right _ _
  have hss : position / 2 ^ 8 % 256 < 256 := Nat.mod_lt _ (by decide)
  have hperShard : subshardsPerShard = 256 := rfl
  have hrows : l0DbRows = 8192 := rfl
  have hshards : l0MaxShards = 32 := rfl
  rw [rowOf]
  lia

theorem canonicalRow_positionRow {t : CommitmentTreeDb} (hleaves : t.CanonicalLeaves M)
    (position : Nat) : CanonicalRow M (t.positionRow M position) := by
  apply canonicalRow_flatMap (length_subshardLeavesOf t _ _)
  intro node hnode
  rcases List.mem_map.mp hnode with ⟨k, _, heq⟩
  rw [← heq]
  exact canonical_leafAt hleaves _

theorem leaf_positionRow {t : CommitmentTreeDb} {position : Nat}
    (hlo : t.leafOffset ≤ position) (hhi : position < t.treeSize) :
    t.leaves[position - t.leafOffset]? =
      some (rowLeaf (t.positionRow M position) (position % 256)) := by
  have hl : position % 256 < subshardLeaves := Nat.mod_lt _ (by decide)
  have hparsed := parsedLeaves_flatMap (length_subshardLeavesOf (M := M) t
    (position / 2 ^ 16) (position / 2 ^ 8 % 256))
  have hleaf := getElem?_subshardLeavesOf (M := M) t (position / 2 ^ 16)
    (position / 2 ^ 8 % 256) hl
  rw [position_eq, leafNode, leafAt_of_ge hlo] at hleaf
  have hbound : position - t.leafOffset < t.leaves.length := by
    rw [treeSize] at hhi
    lia
  rw [positionRow, ← getElem?_parsedLeaves hl, hparsed, hleaf,
    List.getD_eq_getElem?_getD, List.getElem?_eq_getElem hbound]
  rfl

/-- A witness of a tree: its siblings are the tree's subtree roots along the path and
its anchor is the tree root. -/
structure WitnessOf (M : MerkleHashOrchard) (t : CommitmentTreeDb) (position : Nat)
    (witness : PirWitness) : Prop where
  anchor : t.treeRoot M = some witness.anchorRoot
  siblings : forall level : Fin treeDepth, some (witness.siblings level) =
    t.subtreeRoot M level.val ((position / 2 ^ level.val) ^^^ 1)

/-- A position's row and the broadcast built with it reconstruct to its witness. -/
theorem reconstruct_positionRow {t t' : CommitmentTreeDb} {anchorHeight : Nat}
    {db : List UInt8} {broadcast : BroadcastData}
    (haligned : t.leafOffset % shardLeaves = 0) (hvalid : CacheValid M t)
    (hlocal : t.localShardCount ≤ l0MaxShards) (hsize : t.treeSize ≤ 2 ^ 32)
    (hleaves : t.CanonicalLeaves M) (hprefetched : AllCanonical M t.prefetchedShardRoots)
    (hbuild : t.buildPirDbAndBroadcast M anchorHeight = some (t', db, broadcast))
    {position : Nat} (hlo : t.leafOffset ≤ position) (hhi : position < t.treeSize)
    (clientMode : Arithmetic) :
    exists witness,
      reconstructWitness M clientMode position (position / 2 ^ 16)
          (position / 2 ^ 8 % 256) (position % 256) (t.positionRow M position) broadcast =
        .ok witness ∧
      witness.anchorHeight = anchorHeight ∧ WitnessOf M t position witness := by
  have hfits := fitsShardIndex_of_le hsize
  have hwindow : t.windowShardCount = t.localShardCount := Nat.min_eq_left hlocal
  have hposition : position < 2 ^ 32 := Nat.lt_of_lt_of_le hhi hsize
  rcases build_tree_eq hvalid hbuild with ⟨_, shards, _, _, hshards, _, hbroadcast⟩
  have hwf := broadcastOf_wellFormed haligned hsize hleaves hprefetched hshards
    anchorHeight
  have hcap := cap_eq haligned hfits hshards anchorHeight
  rw [← hbroadcast] at hwf hcap
  rw [hwindow, ← populatedShards_eq haligned hfits] at hcap
  have hstart : broadcast.windowStartShard = t.windowStartShard := by
    rw [hbroadcast]
    rfl
  have hcount : broadcast.windowShardCount = t.windowShardCount := by
    rw [hbroadcast]
    rfl
  rcases position_in_window haligned hsize hlocal hlo hhi with ⟨hshardLo, hshardHi⟩
  have hi := Nat.sub_lt_left_of_lt_add hshardLo hshardHi
  have hidx : t.windowStartShard + (position / 2 ^ 16 - t.windowStartShard) =
      position / 2 ^ 16 := Nat.add_sub_cancel' hshardLo
  have hss : position / 2 ^ 8 % 256 < subshardsPerShard := Nat.mod_lt _ (by decide)
  have hparsed : parsedLeaves (t.positionRow M position) = _ :=
    parsedLeaves_flatMap (length_subshardLeavesOf (M := M) t (position / 2 ^ 16)
      (position / 2 ^ 8 % 256))
  rcases reconstructWitness_of_window clientMode position hposition hwf
    (canonicalRow_positionRow hleaves position) (by rw [hstart]; exact hshardLo)
    (by rw [hstart, hcount]; exact hshardHi) with
    ⟨shard, witness, hshard, hwitness, hheight, hsiblings, hanchor⟩
  rw [hstart, hbroadcast] at hshard
  rcases row_consistent haligned hsize hshards anchorHeight hi hss hshard with
    ⟨hroots, hrowRoot, hshardRoot⟩
  rw [hidx] at hroots hrowRoot hshardRoot
  rw [← hbroadcast] at hshardRoot
  have hcapNodes : forall i, i < 2 ^ shardHeight ->
      (padCap M broadcast.cap.shardRoots)[i]? = t.shardNode M i :=
    fun i hi => getElem?_padCap_of_cap haligned hfits hcap hi
  have hpath := pathRoot_of_consistent hposition (by rw [hparsed]; exact hrowRoot)
    hshardRoot hsiblings
  refine ⟨witness, hwitness, ?_, ?_, ?_⟩
  · rw [hheight, hbroadcast]
    rfl
  · rw [treeRoot_eq haligned hsize, ← capRoot_eq haligned hfits hcap, ← hpath, hanchor]
  · intro level
    rw [hsiblings level, hparsed]
    exact tierSibling_eq hposition hroots hcapNodes level.isLt

/-- In every history, a position in the window is answered with its own leaf and
reconstructs to a witness of the current tree. -/
theorem witness_end_to_end {leafOffset : Nat} {prefetched : List Hash}
    (haligned : leafOffset % shardLeaves = 0) {ops : List TreeOp} {t : CommitmentTreeDb}
    (hrun : Run (TreeStep M mode xxh64) (withOffset leafOffset prefetched) ops t)
    (hlocal : t.localShardCount ≤ l0MaxShards) (hsize : t.treeSize ≤ 2 ^ 32)
    (hleaves : t.CanonicalLeaves M) (hprefetched : AllCanonical M prefetched)
    {position : Nat} (hlo : leafOffset ≤ position) (hhi : position < t.treeSize)
    (clientMode : Arithmetic) (anchorHeight : Nat) :
    exists t' db broadcast rowIndex witness,
      t.buildPirDbAndBroadcast M anchorHeight = some (t', db, broadcast) ∧
      (let (shardIdx, subshardIdx, leafIdx) := decomposePosition position
       let row := slice db (rowIndex * subshardRowBytes) subshardRowBytes
       (physicalRowIndex clientMode shardIdx subshardIdx broadcast.windowStartShard :
          Outcome WitnessClientError Nat) = .ok rowIndex ∧
       rowIndex < l0DbRows ∧ row.length = subshardRowBytes ∧
       t.leaves[position - leafOffset]? = some (rowLeaf row leafIdx) ∧
       reconstructWitness M clientMode position shardIdx subshardIdx leafIdx row
          broadcast = .ok witness) ∧
      witness.anchorHeight = anchorHeight ∧
      t.treeRoot M = some witness.anchorRoot ∧
      forall level : Fin treeDepth, some (witness.siblings level) =
        t.subtreeRoot M level.val ((position / 2 ^ level.val) ^^^ 1) := by
  have hinv := treeInvariant_history haligned hrun
  have halignedTree : t.leafOffset % shardLeaves = 0 := by
    rw [hinv.leafOffset]
    exact haligned
  rw [← hinv.prefetched] at hprefetched
  rw [← hinv.leafOffset] at hlo ⊢
  have hfits := fitsShardIndex_of_le hsize
  rcases build_of_canonical hinv.cache hleaves anchorHeight with
    ⟨t', db, broadcast, hbuild⟩
  rcases reconstruct_positionRow halignedTree hinv.cache hlocal hsize hleaves hprefetched
    hbuild hlo hhi clientMode with ⟨witness, hwitness, hheight, hof⟩
  rcases position_in_window halignedTree hsize hlocal hlo hhi with ⟨hshardLo, hshardEnd⟩
  refine ⟨t', db, broadcast, t.rowOf position, witness, hbuild, ?_, hheight, hof.anchor,
    hof.siblings⟩
  rw [decomposePosition_of_lt (Nat.lt_of_lt_of_le hhi hsize)]
  dsimp only
  rw [slice_rowOf halignedTree hinv.cache hfits hbuild hshardLo hshardEnd]
  exact ⟨physicalRowIndex_eq hbuild clientMode hshardLo, rowOf_lt hshardLo hshardEnd,
    length_positionRow t position, leaf_positionRow hlo hhi, hwitness⟩

/-- Behind a prefetched shard, the second leaf of the second sub-shard is answered with a
witness of the tree. -/
theorem witness_end_to_end_offsetTree :
    let (shardIdx, subshardIdx, leafIdx) := decomposePosition (shardLeaves + 257)
    exists t' db broadcast rowIndex witness,
      offsetTree.buildPirDbAndBroadcast sampleHash 6 = some (t', db, broadcast) ∧
      rowIndex < l0DbRows ∧
      rowLeaf (slice db (rowIndex * subshardRowBytes) subshardRowBytes) leafIdx =
        ByteVec.ofBytes 32 [7] ∧
      reconstructWitness sampleHash .checked (shardLeaves + 257) shardIdx subshardIdx leafIdx
        (slice db (rowIndex * subshardRowBytes) subshardRowBytes) broadcast = .ok witness ∧
      offsetTree.treeRoot sampleHash = some witness.anchorRoot ∧
      forall level : Fin treeDepth, some (witness.siblings level) =
        offsetTree.subtreeRoot sampleHash level.val
          (((shardLeaves + 257) / 2 ^ level.val) ^^^ 1) := by
  have hprefetched : AllCanonical sampleHash [sampleShardRoot] := by
    intro root hroot
    rw [List.mem_singleton.mp hroot]
    exact canonical_sampleHash (by decide)
  have hlocal : offsetTree.localShardCount ≤ l0MaxShards := by decide +kernel
  have hsize : offsetTree.treeSize ≤ 2 ^ 32 := by
    rw [treeSize_offsetTree]
    decide
  have hposition : shardLeaves + 257 < offsetTree.treeSize := by
    rw [treeSize_offsetTree]
    decide
  rcases witness_end_to_end (Nat.mod_self shardLeaves) run_offsetTree hlocal hsize
    canonicalLeaves_offsetTree hprefetched (Nat.le_add_right shardLeaves 257) hposition .checked
    6 with ⟨t', db, broadcast, rowIndex, witness, hbuild, hrow, _, hroot, hsiblings⟩
  rcases hrow with ⟨_, hindex, _, hleaf, hwitness⟩
  have hlast : offsetTree.leaves[shardLeaves + 257 - shardLeaves]? =
      some (ByteVec.ofBytes 32 [7]) := by
    decide +kernel
  rw [hlast] at hleaf
  exact ⟨t', db, broadcast, rowIndex, witness, hbuild, hindex, (Option.some.inj hleaf).symm,
    hwitness, hroot, hsiblings⟩

end CommitmentTreeDb
end Witness
end SpendabilityPir
