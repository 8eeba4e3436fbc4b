import SpendabilityPir.Witness.Verification
import SpendabilityPir.Witness.WindowLayout

/-!
# What a broadcast covers

The tree root of the server is the root of the cap it broadcasts, as long as all shards
with local leaves fit in the window.  The window never slides: past 32 local shards the
frontier is outside it and the cap is short.
-/

namespace SpendabilityPir
namespace Witness

open Foundation

namespace CommitmentTreeDb

variable {M : MerkleHashOrchard} {mode : Arithmetic}
variable {xxh64 : List UInt8 -> Nat -> UInt64}

theorem fitsShardIndex_of_le {t : CommitmentTreeDb} (h : t.treeSize ≤ 2 ^ 32) :
    t.FitsShardIndex := by
  have hshard : shardLeaves = 65536 := rfl
  rw [FitsShardIndex, hshard]
  lia

theorem populatedShards_eq {t : CommitmentTreeDb}
    (haligned : t.leafOffset % shardLeaves = 0) (h : t.FitsShardIndex) :
    t.populatedShards = t.windowStartShard + t.localShardCount := by
  have hshard : shardLeaves = 65536 := rfl
  have hoffset := leafOffset_eq haligned h
  have hcount := localShardCount_eq haligned h
  rw [hshard] at hoffset hcount
  rw [FitsShardIndex, treeSize, hshard] at h
  unfold populatedShards
  rw [treeSize, hcount, hshard]
  generalize t.windowStartShard = first at hoffset ⊢
  split
  · lia
  · rw [asU32_of_lt (by lia)]
    lia

theorem newestShard_eq {t : CommitmentTreeDb}
    (haligned : t.leafOffset % shardLeaves = 0) (h : t.FitsShardIndex)
    (hleaves : t.leaves ≠ []) :
    (t.treeSize - 1) / shardLeaves + 1 = t.windowStartShard + t.localShardCount := by
  have hshard : shardLeaves = 65536 := rfl
  have hlen : 0 < t.leaves.length := List.length_pos_of_ne_nil hleaves
  have hoffset := leafOffset_eq haligned h
  have hcount := localShardCount_eq haligned h
  rw [hshard] at hoffset hcount
  rw [treeSize, hcount, hshard]
  generalize t.windowStartShard = first at hoffset ⊢
  lia

theorem localShardCount_le_iff {t : CommitmentTreeDb}
    (haligned : t.leafOffset % shardLeaves = 0) (h : t.FitsShardIndex) :
    t.localShardCount ≤ l0MaxShards ↔ t.leaves.length ≤ l0MaxShards * shardLeaves := by
  have hshard : shardLeaves = 65536 := rfl
  have hmax : l0MaxShards = 32 := rfl
  rw [localShardCount_eq haligned h, hshard, hmax]
  lia

/-!
## The root of the tree
-/

theorem shardNode_of_ge {t : CommitmentTreeDb}
    (haligned : t.leafOffset % shardLeaves = 0) (h : t.FitsShardIndex) {i : Nat}
    (hi : t.populatedShards ≤ i) :
    t.shardNode M i = some (emptyRoots M shardHeight) := by
  have hshard : shardLeaves = 65536 := rfl
  have hheight : 2 ^ shardHeight = 65536 := rfl
  have hoffset := leafOffset_eq haligned h
  have hcount := localShardCount_eq haligned h
  rw [populatedShards_eq haligned h] at hi
  rw [shardNode, if_neg (by lia)]
  apply rootAt_leafNode_of_ge
  rw [treeSize, hheight]
  rw [hshard] at hoffset hcount
  generalize t.windowStartShard = first at hoffset hi
  lia

theorem shardRoots_eq (t : CommitmentTreeDb) :
    t.shardRoots M = (List.range t.populatedShards).mapM
      (fun i => (t.shardNode M i).map (Prod.mk i)) := by
  apply mapM_congr
  intro i _
  unfold shardNode
  split
  · rfl
  · rw [← bind_subshardRoots]
    cases t.subshardRoots M i with
    | none => rfl
    | some roots =>
        show (completeSubtreeRoot M roots subshardHeight >>= _) =
          (completeSubtreeRoot M roots subshardHeight).map _
        cases completeSubtreeRoot M roots subshardHeight <;> rfl

theorem map_snd_shardRoots (t : CommitmentTreeDb) :
    (t.shardRoots M).map (List.map Prod.snd) =
      (List.range t.populatedShards).mapM (t.shardNode M) := by
  rw [shardRoots_eq, ← mapM_map]
  apply mapM_congr
  intro i _
  rw [Option.map_map]
  exact Option.map_id'

theorem populatedShards_le {t : CommitmentTreeDb}
    (haligned : t.leafOffset % shardLeaves = 0) (h : t.treeSize ≤ 2 ^ 32) :
    t.populatedShards ≤ 2 ^ shardHeight := by
  have hshard : shardLeaves = 65536 := rfl
  have hheight : 2 ^ shardHeight = 65536 := rfl
  have hfits := fitsShardIndex_of_le h
  have hoffset := leafOffset_eq haligned hfits
  have hcount := localShardCount_eq haligned hfits
  rw [hshard] at hoffset hcount
  rw [treeSize] at h
  rw [populatedShards_eq haligned hfits, hcount, hheight]
  generalize t.windowStartShard = first at hoffset ⊢
  lia

/-- The server's tree root is the root over the shard nodes. -/
theorem treeRoot_eq {t : CommitmentTreeDb}
    (haligned : t.leafOffset % shardLeaves = 0) (h : t.treeSize ≤ 2 ^ 32) :
    t.treeRoot M = rootAt M shardHeight (t.shardNode M) shardHeight 0 := by
  have hfits := fitsShardIndex_of_le h
  have hempty : forall i, t.populatedShards ≤ i ->
      t.shardNode M i = some (emptyRoots M shardHeight) :=
    fun i hi => shardNode_of_ge haligned hfits hi
  unfold treeRoot
  split
  · next hzero =>
      have hnone : t.populatedShards = 0 := if_pos hzero
      have hroot : rootAt M shardHeight (t.shardNode M) shardHeight 0 =
          some (emptyRoots M (shardHeight + shardHeight)) :=
        rootAt_empty (fun i _ _ => hempty i (by lia))
      rw [hroot]
      rfl
  · have hpopulated := populatedShards_le haligned h
    rw [← bind_sparseSubtreeRoot hpopulated hempty, ← map_snd_shardRoots,
      Option.bind_map]
    rfl

/-!
## The cap of a broadcast
-/

theorem cap_eq {t : CommitmentTreeDb} (haligned : t.leafOffset % shardLeaves = 0)
    (h : t.FitsShardIndex) {shards : List (List Hash × Hash)}
    (hshards : (List.range t.windowShardCount).mapM (t.windowShard M) = some shards)
    (anchorHeight : Nat) :
    (List.range (t.windowStartShard + t.windowShardCount)).mapM (t.shardNode M) =
      some (t.broadcastOf M shards anchorHeight).cap.shardRoots := by
  have hlen : shards.length = t.windowShardCount := by
    rw [length_mapM hshards, List.length_range]
  apply mapM_range_eq_some
  · unfold broadcastOf
    rw [List.length_append, List.length_map, List.length_range, List.length_map, hlen]
  · intro i hi
    unfold broadcastOf
    dsimp only
    by_cases hbefore : i < t.windowStartShard
    · rw [List.getElem?_append_left (by rw [List.length_map, List.length_range]; lia),
        List.getElem?_map, List.getElem?_range hbefore, shardNode, if_pos hbefore]
      rfl
    · have hwindow : i - t.windowStartShard < t.windowShardCount := by lia
      have hidx : t.windowStartShard + (i - t.windowStartShard) = i := by lia
      have hshard := getElem?_mapM_range hshards hwindow
      have hbound : i - t.windowStartShard < shards.length := by lia
      rw [List.getElem?_eq_getElem hbound] at hshard
      have hroot := (windowShard_eq_some hshard.symm).right
      rw [windowShardIdx_eq haligned h hwindow, hidx] at hroot
      rw [List.getElem?_append_right (by rw [List.length_map, List.length_range]; lia),
        List.length_map, List.length_range, List.getElem?_map,
        List.getElem?_eq_getElem hbound, shardNode, if_neg hbefore, hroot]
      rfl

theorem length_cap {t t' : CommitmentTreeDb} {anchorHeight : Nat} {db : List UInt8}
    {broadcast : BroadcastData} (hvalid : CacheValid M t)
    (hbuild : t.buildPirDbAndBroadcast M anchorHeight = some (t', db, broadcast)) :
    broadcast.cap.shardRoots.length = t.windowStartShard + t.windowShardCount := by
  rcases build_tree_eq hvalid hbuild with ⟨_, shards, _, _, hshards, _, hbroadcast⟩
  rw [hbroadcast]
  unfold broadcastOf
  rw [List.length_append, List.length_map, List.length_range, List.length_map,
    length_mapM hshards, List.length_range]

theorem getElem?_padCap (roots : List Hash) {i : Nat} (hi : i < 2 ^ shardHeight) :
    (padCap M roots)[i]? = paddedLeaf M roots shardHeight i := by
  rw [padCap, paddedLeaf, ← emptyRoots_eq_emptyHash (by decide)]
  split
  · next hlt =>
      rw [List.getElem?_append_left (by rw [List.length_take]; lia),
        List.getElem?_take_of_lt hi]
  · next hge =>
      rw [List.getElem?_append_right (by rw [List.length_take]; lia),
        List.getElem?_replicate, List.length_take, if_pos (by lia)]

/-- A client that pads the cap of a broadcast hashes the server's tree. -/
def CoversTree (M : MerkleHashOrchard) (t : CommitmentTreeDb)
    (broadcast : BroadcastData) : Prop :=
  broadcast.cap.shardRoots.length = t.populatedShards ∧
  (t.shardRoots M).map (List.map Prod.snd) = some broadcast.cap.shardRoots ∧
  (t.leaves ≠ [] ->
    broadcast.windowStartShard ≤ (t.treeSize - 1) / shardLeaves ∧
    (t.treeSize - 1) / shardLeaves <
      broadcast.windowStartShard + broadcast.windowShardCount) ∧
  capRoot M broadcast = t.treeRoot M

theorem length_leaves_le_of_coversTree {t t' : CommitmentTreeDb} {anchorHeight : Nat}
    {db : List UInt8} {broadcast : BroadcastData}
    (haligned : t.leafOffset % shardLeaves = 0) (h : t.FitsShardIndex)
    (hvalid : CacheValid M t)
    (hbuild : t.buildPirDbAndBroadcast M anchorHeight = some (t', db, broadcast))
    (hcovers : CoversTree M t broadcast) :
    t.leaves.length ≤ l0MaxShards * shardLeaves := by
  have hcount := hcovers.left
  rw [length_cap hvalid hbuild, populatedShards_eq haligned h, windowShardCount] at hcount
  exact (localShardCount_le_iff haligned h).mp (by lia)

theorem getElem?_padCap_of_cap {t : CommitmentTreeDb} {roots : List Hash}
    (haligned : t.leafOffset % shardLeaves = 0) (h : t.FitsShardIndex)
    (hcap : (List.range t.populatedShards).mapM (t.shardNode M) = some roots) {i : Nat}
    (hi : i < 2 ^ shardHeight) : (padCap M roots)[i]? = t.shardNode M i := by
  have hlen : roots.length = t.populatedShards := by
    rw [length_mapM hcap, List.length_range]
  rw [getElem?_padCap _ hi, paddedLeaf, hlen]
  split
  · next hlt => exact getElem?_mapM_range hcap hlt
  · next hge => exact (shardNode_of_ge haligned h (Nat.le_of_not_lt hge)).symm

theorem capRoot_eq {t : CommitmentTreeDb} {broadcast : BroadcastData}
    (haligned : t.leafOffset % shardLeaves = 0) (h : t.FitsShardIndex)
    (hcap : (List.range t.populatedShards).mapM (t.shardNode M) =
      some broadcast.cap.shardRoots) :
    capRoot M broadcast = rootAt M shardHeight (t.shardNode M) shardHeight 0 := by
  apply MerkleTree.node_congr
  intro i _ hi
  rw [Nat.zero_add, Nat.one_mul] at hi
  exact getElem?_padCap_of_cap haligned h hcap hi

/-- In every history, a broadcast covers the tree exactly while at most 32 shards of
leaves have been appended to it. -/
theorem broadcast_covers_tree_iff {leafOffset : Nat} {roots : List Hash}
    (haligned : leafOffset % shardLeaves = 0) {ops : List TreeOp} {t : CommitmentTreeDb}
    (hrun : Run (TreeStep M mode xxh64) (withOffset leafOffset roots) ops t)
    (hsize : t.treeSize ≤ 2 ^ 32) {anchorHeight : Nat} {t' : CommitmentTreeDb}
    {db : List UInt8} {broadcast : BroadcastData}
    (hbuild : t.buildPirDbAndBroadcast M anchorHeight = some (t', db, broadcast)) :
    CoversTree M t broadcast ↔ t.leaves.length ≤ l0MaxShards * shardLeaves := by
  have hinv := treeInvariant_history haligned hrun
  have halignedTree : t.leafOffset % shardLeaves = 0 := by
    rw [hinv.leafOffset]
    exact haligned
  have hfits := fitsShardIndex_of_le hsize
  constructor
  · exact length_leaves_le_of_coversTree halignedTree hfits hinv.cache hbuild
  · intro hlen
    have hlocal := (localShardCount_le_iff halignedTree hfits).mpr hlen
    have hwindow : t.windowShardCount = t.localShardCount := Nat.min_eq_left hlocal
    have hpopulated := populatedShards_eq halignedTree hfits
    rcases build_tree_eq hinv.cache hbuild with
      ⟨_, shards, _, _, hshards, _, hbroadcast⟩
    have hcap := cap_eq halignedTree hfits hshards anchorHeight
    rw [← hbroadcast, hwindow, ← hpopulated] at hcap
    refine ⟨?_, ?_, ?_, ?_⟩
    · rw [length_mapM hcap, List.length_range]
    · rw [map_snd_shardRoots]
      exact hcap
    · intro hleaves
      have hnewest := newestShard_eq halignedTree hfits hleaves
      have hsome : 0 < t.localShardCount := by
        rw [localShardCount_eq halignedTree hfits]
        have hpos : 0 < t.leaves.length := List.length_pos_of_ne_nil hleaves
        have hshard : shardLeaves = 65536 := rfl
        rw [hshard]
        lia
      have hstart : broadcast.windowStartShard = t.windowStartShard := by
        rw [hbroadcast]
        rfl
      have hcount : broadcast.windowShardCount = t.localShardCount := by
        rw [hbroadcast, ← hwindow]
        rfl
      rw [hstart, hcount]
      lia
    · rw [capRoot_eq halignedTree hfits hcap, treeRoot_eq halignedTree hsize]

/-- The broadcast of a tree behind a prefetched shard, after a rollback, covers it. -/
theorem broadcast_covers_tree_offsetTree :
    exists t' db broadcast,
      offsetTree.buildPirDbAndBroadcast sampleHash 6 = some (t', db, broadcast) ∧
      CoversTree sampleHash offsetTree broadcast ∧
      broadcast.cap.shardRoots.length = 2 := by
  have hcache := (treeInvariant_history (Nat.mod_self shardLeaves) run_offsetTree).cache
  rcases build_of_canonical hcache canonicalLeaves_offsetTree 6 with
    ⟨t', db, broadcast, hbuild⟩
  have hsize : offsetTree.treeSize ≤ 2 ^ 32 := by
    rw [treeSize_offsetTree]
    decide
  have hsmall : offsetTree.leaves.length ≤ l0MaxShards * shardLeaves := by
    rw [leaves_offsetTree, List.length_append, subshardBlock, List.length_replicate]
    decide
  have hcovers := (broadcast_covers_tree_iff (Nat.mod_self shardLeaves) run_offsetTree hsize
    hbuild).mpr hsmall
  refine ⟨t', db, broadcast, hbuild, hcovers, ?_⟩
  rw [hcovers.left, populatedShards, treeSize_offsetTree]
  rfl

/-- One leaf past 32 shards the broadcast no longer covers the tree. -/
theorem frontier_outside_window :
    exists t t' db broadcast,
      Run (TreeStep sampleHash .checked (fun _ _ => 0)) (withOffset 0 [])
        [.appendCommitments 1 (ByteVec.zeros 32)
          (List.replicate (2 ^ 21 + 1) (ByteVec.zeros 32))] t ∧
      t.treeSize ≤ 2 ^ 32 ∧
      t.buildPirDbAndBroadcast sampleHash 1 = some (t', db, broadcast) ∧
      ¬ CoversTree sampleHash t broadcast := by
  have haligned := Nat.zero_mod shardLeaves
  have hlength : (grownTree 0 (2 ^ 21 + 1)).leaves.length = 2 ^ 21 + 1 := by
    rw [leaves_grownTree, List.length_replicate]
  have hoffset := leafOffset_grownTree 0 (2 ^ 21 + 1)
  have hsize : (grownTree 0 (2 ^ 21 + 1)).treeSize ≤ 2 ^ 32 := by
    rw [treeSize, hlength, hoffset]
    decide
  rcases build_grownTree (2 ^ 21 + 1) haligned 1 with ⟨t', db, broadcast, hbuild⟩
  refine ⟨grownTree 0 (2 ^ 21 + 1), t', db, broadcast, run_grownTree _ _ _ _ _, hsize,
    hbuild, ?_⟩
  intro hcovers
  have hshort := length_leaves_le_of_coversTree (by rw [hoffset]; exact haligned)
    (fitsShardIndex_of_le hsize) (cacheValid_grownTree (2 ^ 21 + 1) haligned) hbuild
    hcovers
  rw [hlength] at hshort
  exact absurd hshort (by decide)

end CommitmentTreeDb
end Witness
end SpendabilityPir
